import Keyfob.Proofs.Dongle.Delivery
import Keyfob.Proofs.Dongle.Menu
import Keyfob.Proofs.Dongle.Reading
import Keyfob.Proofs.Store.Changes

/-!
# A device does what is entered

Handled press by press, the button does what the presses enter as a whole (`ButtonPress.read`): a
press takes the device from what was entered so far to what is entered with it
(`Dongle.accords_press`), and so do all that are pushed, however passes of the main loop fall
between them (`Dongle.mode_of_presses`).
-/
namespace Keyfob

variable {δ κ φ : Type}

/-- A turn in which nothing but the links and the button does anything. -/
def Turn.LeavesCore : Turn δ κ φ → Prop
  | .changes _ _ _ _ => False
  | _ => True

namespace Mode

/-- A pad is worked. -/
def hasPad : Mode → Bool
  | code _ => true
  | file _ => true
  | menu _ => false
  | restart _ => false

/-- A pad is no menu. -/
theorem ne_menu_of_hasPad {mode : Mode} (pad : mode.hasPad = true) (selected : Nat) :
    mode ≠ .menu selected := by
  rintro rfl
  exact Bool.false_ne_true pad

/-- A pad is worked by no device that waits for another mode. -/
theorem ne_restart_of_hasPad {mode : Mode} (pad : mode.hasPad = true) (boot : BootMode) :
    mode ≠ .restart boot := by
  rintro rfl
  exact Bool.false_ne_true pad

/-- A menu is shown by no device that waits for another mode. -/
theorem ne_restart_of_menu {mode : Mode} {selected : Nat} (inMenu : mode = .menu selected)
    (boot : BootMode) : mode ≠ .restart boot := by
  rw [inMenu]
  intro waiting
  cases waiting

/-- In which modes a press asks for what. -/
theorem task_spec (mode : Mode) (press : ButtonPress) :
    match mode.task press with
    | .pad next => mode.hasPad = true ∧ next.hasPad = true
    | .enter _ _ => mode.hasPad = true
    | .typeFile _ _ => mode.hasPad = true
    | .browse selected => mode = .menu selected
    | .send selected => mode = .menu selected
    | .nothing => ∃ boot, mode = .restart boot := by
  unfold task
  cases mode with
  | code pad =>
    cases press with
    | short => exact ⟨rfl, rfl⟩
    | long =>
      dsimp only
      cases pad.accept with
      | mk entered next =>
        cases entered with
        | none => exact ⟨rfl, rfl⟩
        | some pin => rfl
  | file pad =>
    cases press with
    | short => exact ⟨rfl, rfl⟩
    | long =>
      dsimp only
      cases pad.accept with
      | mk entered next =>
        cases entered with
        | none => exact ⟨rfl, rfl⟩
        | some pin => rfl
  | menu selected => cases press <;> rfl
  | restart boot => cases press <;> exact ⟨boot, rfl⟩

end Mode

/-- A mode that was asked for is found by every view of the store. -/
theorem BootMode.getBool?_request [KeyValueStore κ] (view : KeyValueStore.View κ) {store : κ}
    (fit : view.Fit store) {mode : BootMode} (asked : (mode.request store).1 = .ok ()) :
    KeyValueStore.getBool? (view.look (mode.request store).2) mode.space mode.key = some true := by
  have made : KeyValueStore.apply store (.set mode.space mode.key (.bool true)) =
      (.ok (), (mode.request store).2) := Prod.ext asked rfl
  have seen := (view.made fit made).2
  unfold KeyValueStore.getBool? KeyValueStore.get?
  rw [seen, KeyValueStore.Change.find?_on, KeyValueStore.Change.touches]
  simp [KeyValueStore.Change.left]

section Errands

variable [Device δ]

/-- A device after actions; where one is refused, everything is let go. -/
def settled (actions : List Action) (device : δ) : δ :=
  match performAll actions device with
  | (.ok (), device) => device
  | (.error _, device) => (Device.perform .releaseAll device).2

namespace Core

/-- The device after a file was typed byte for byte, each as the character of that code. -/
def typed [FileStore φ] (core : Core δ κ φ) (name : Text) : δ :=
  match core.files with
  | none => core.device
  | some files =>
    match FileStore.read name files with
    | .error _ => core.device
    | .ok bytes =>
      settled (Action.typeText core.player.pacing (bytes.map fun b => Char.ofNat b.toNat))
        core.device

/-- The device after the secret of the credential at a place was typed, and Enter. -/
def sent (core : Core δ κ φ) (place : Nat) : δ :=
  match core.credentials.list[place]? with
  | none => core.device
  | some credential =>
    settled (Action.typeText core.macros.defaultSpeed credential.secret ++
      Action.tap ⟨0, Usage.enter⟩) core.device

end Core

/-- What an errand changes. -/
def Errand.effect [KeyValueStore κ] [FileStore φ] (core : Core δ κ φ) : Errand → Core δ κ φ
  | request mode => { core with store := (mode.request core.store).2 }
  | opens => { core with credentials := Credentials.load core.store }
  | typeFile pin => { core with device := core.typed (pin.text ++ ".txt") }
  | send place => { core with device := core.sent place }

end Errands

namespace Dongle

/-- A device with the screen and the links that there are. -/
def equipped (screen : Option Screen) (serial wireless : Option Channel) (dongle : Dongle δ κ φ) :
    Dongle δ κ φ :=
  let watched := screen.elim dongle dongle.withScreen
  let wired := serial.elim watched watched.withSerial
  wireless.elim wired wired.withWireless

/-- A screen and links change nothing of what is shared, nor what the button works. -/
theorem equipped_keeps (screen : Option Screen) (serial wireless : Option Channel)
    (dongle : Dongle δ κ φ) :
    (dongle.equipped screen serial wireless).core = dongle.core ∧
      (dongle.equipped screen serial wireless).mode = dongle.mode ∧
      (dongle.equipped screen serial wireless).presses = dongle.presses := by
  have watched (screen : Screen) : (dongle.withScreen screen).core = dongle.core ∧
      (dongle.withScreen screen).mode = dongle.mode ∧
      (dongle.withScreen screen).presses = dongle.presses := by
    refine ⟨core_showPad { dongle with screen := some screen },
      mode_showPad { dongle with screen := some screen }, ?_⟩
    unfold withScreen showPad
    split <;> rfl
  unfold equipped
  cases screen <;> cases serial <;> cases wireless
  all_goals first | exact ⟨rfl, rfl, rfl⟩ | exact watched _

variable [Device δ]

/-- Typing a secret changes what is shared as the errand does. -/
theorem core_send [KeyValueStore κ] [FileStore φ] (dongle : Dongle δ κ φ) (place : Nat) :
    (dongle.send place).core = (Errand.send place).effect dongle.core := by
  unfold send Errand.effect Core.sent
  dsimp only
  cases dongle.core.credentials.list[place]? with
  | none => rfl
  | some credential =>
    dsimp only
    unfold perform settled
    cases performAll (Action.typeText dongle.core.macros.defaultSpeed credential.secret ++
        Action.tap ⟨0, Usage.enter⟩) dongle.core.device with
    | mk result device =>
      cases result with
      | ok _ => rfl
      | error e => rfl

/-- Typing a file changes what is shared as the errand does. -/
theorem core_typeFile [KeyValueStore κ] [FileStore φ] (dongle : Dongle δ κ φ) (pin : Pin) :
    (dongle.typeFile pin).core = (Errand.typeFile pin).effect dongle.core := by
  obtain ⟨core, serial, wireless, mode, presses, screen⟩ := dongle
  obtain ⟨settings, device, macros, player, store, credentials, codes, files, recorder, now⟩ := core
  unfold typeFile Errand.effect Core.typed Player.typeFile settled FileName.ending
  dsimp only
  cases files with
  | none => rfl
  | some files =>
    dsimp only
    cases FileStore.read (pin.text ++ ".txt") files with
    | error e => rfl
    | ok bytes =>
      dsimp only
      cases performAll (Action.typeText player.pacing (bytes.map fun b => Char.ofNat b.toNat))
          device with
      | mk result device =>
        cases result with
        | ok _ => rfl
        | error e => rfl

variable [KeyValueStore κ] [FileStore φ]

/-- A device is where an upshot leads from some shared parts. -/
structure Accords (start : Core δ κ φ) (upshot : Upshot) (dongle : Dongle δ κ φ) : Prop where
  /-- The button works what it leads to. -/
  mode : dongle.mode = upshot.mode
  /-- Its errands have been done. -/
  core : dongle.core = upshot.errands.foldl Errand.effect start
  /-- The codes are those from the start. -/
  codes : dongle.core.codes = start.codes
  /-- So is the store, unless another mode was asked for. -/
  store : (∀ mode, dongle.mode ≠ .restart mode) → dongle.core.store = start.store
  /-- In the menu, the credentials are those that are stored. -/
  opened : ∀ selected, dongle.mode = .menu selected →
    dongle.core.credentials = Credentials.load start.store

/-- The number of entries of a menu of the credentials that a store keeps. -/
def entries (store : κ) : Nat := (Credentials.load store).list.length

section Accords

variable {start : Core δ κ φ} {upshot : Upshot} {dongle : Dongle δ κ φ}

/-- Whether a device accords is up to its shared parts and what the button works. -/
theorem Accords.of_same {other : Dongle δ κ φ} (accords : Accords start upshot dongle)
    (mode : other.mode = dongle.mode) (core : other.core = dongle.core) :
    Accords start upshot other := by
  obtain ⟨works, done, codes, store, opened⟩ := accords
  rw [← mode] at works store opened
  rw [← core] at done codes store opened
  exact ⟨works, done, codes, store, opened⟩

/-- A pad is shown where everything else accords. -/
theorem accords_showPad (mode : dongle.mode = upshot.mode) (pad : dongle.mode.hasPad = true)
    (core : dongle.core = upshot.errands.foldl Errand.effect start)
    (codes : dongle.core.codes = start.codes) (store : dongle.core.store = start.store) :
    Accords start upshot dongle.showPad := by
  refine Accords.of_same ⟨mode, core, codes, fun _ => store, fun selected inMenu => ?_⟩
    (mode_showPad dongle) (core_showPad dongle)
  exact absurd inMenu (Mode.ne_menu_of_hasPad pad selected)

/-- The errands of two upshots are done in turn. -/
theorem Accords.foldl_after (accords : Accords start upshot dongle) (later : Upshot) :
    (later.after upshot.errands).errands.foldl Errand.effect start =
      later.errands.foldl Errand.effect dongle.core := by
  rw [Upshot.after, List.foldl_append, accords.core]

/-- An entered code takes a device where its meaning leads. -/
theorem accords_enter (writable : ∀ mode : BootMode, (mode.request start.store).1 = .ok ())
    (accords : Accords start upshot dongle) (pad : dongle.mode.hasPad = true) (last : PinPad)
    (pin : Pin) :
    Accords start ((start.codes.meaning pin).upshot.after upshot.errands)
      (enter pin { dongle with mode := .code last }) := by
  have stored := accords.store (Mode.ne_restart_of_hasPad pad)
  have known : dongle.core.codes.classify pin = start.codes.meaning pin := by
    rw [accords.codes, AccessCodes.classify_eq_meaning]
  have done := accords.foldl_after
  unfold enter askCode
  dsimp only
  rw [known]
  cases start.codes.meaning pin with
  | boot boot =>
    have asked : boot.request dongle.core.store = (.ok (), (boot.request dongle.core.store).2) :=
      Prod.ext (by rw [stored, writable]) rfl
    dsimp only
    rw [asked]
    refine ⟨rfl, ?_, accords.codes, fun no => absurd rfl (no boot), nofun⟩
    rw [done]
    rfl
  | files => exact accords_showPad rfl rfl (done (PinMatch.upshot .files)).symm accords.codes stored
  | primary =>
    refine ⟨rfl, ?_, accords.codes, fun _ => stored, fun _ _ => congrArg Credentials.load stored⟩
    rw [done]
    rfl
  | rejected =>
    exact accords_showPad rfl rfl (done (PinMatch.upshot .rejected)).symm accords.codes stored

/-- A press takes a device where one step of what was entered so far leads, as long as modes can be
asked for. -/
theorem accords_press (writable : ∀ mode : BootMode, (mode.request start.store).1 = .ok ())
    (accords : Accords start upshot dongle) (press : ButtonPress) :
    Accords start (upshot.next start.codes (entries start.store) press) (dongle.press press) := by
  have kind := dongle.mode.task_spec press
  have done := accords.foldl_after
  unfold Upshot.next
  rw [press_eq, ← accords.mode]
  unfold Mode.advance
  cases asked : dongle.mode.task press with
  | pad next =>
    rw [asked] at kind
    have stored := accords.store (Mode.ne_restart_of_hasPad kind.1)
    exact accords_showPad rfl kind.2 (done ⟨[], next⟩).symm accords.codes stored
  | enter pad pin =>
    rw [asked] at kind
    exact accords_enter writable accords kind pad pin
  | typeFile pad pin =>
    rw [asked] at kind
    have stored := accords.store (Mode.ne_restart_of_hasPad kind)
    have naming := (typeFile_keeps pin { dongle with mode := .file pad }).1
    have typed := core_typeFile { dongle with mode := .file pad } pin
    refine accords_showPad naming (naming ▸ rfl) ?_ ?_ ?_
    · rw [done]
      exact typed
    · rw [typed]
      exact accords.codes
    · rw [typed]
      exact stored
  | browse selected =>
    rw [asked] at kind
    have stored := accords.store (Mode.ne_restart_of_menu kind)
    have loaded := accords.opened selected kind
    have moved (names : List Text) :
        (if names.isEmpty then selected else (selected + 1) % names.length) =
          Mode.placeAfter names.length selected := by
      cases names <;> rfl
    have count : dongle.core.credentials.names.length = entries start.store := by
      rw [loaded]
      exact List.length_map _
    refine ⟨?_, ?_, accords.codes, fun _ => stored, fun _ _ => loaded⟩
    · exact congrArg Mode.menu ((moved _).trans (by rw [count]))
    · rw [done]
      rfl
  | send selected =>
    rw [asked] at kind
    have stored := accords.store (Mode.ne_restart_of_menu kind)
    have loaded := accords.opened selected kind
    have sent : (dongle.pressMenu selected .long).core =
        (Errand.send selected).effect dongle.core := core_send dongle selected
    refine ⟨(send_keeps dongle selected).1, ?_, ?_, fun _ => ?_, fun _ _ => ?_⟩
    · rw [done]
      exact sent
    · rw [fulfil, sent]
      exact accords.codes
    · rw [fulfil, sent]
      exact stored
    · rw [fulfil, sent]
      exact loaded
  | nothing =>
    rw [asked] at kind
    obtain ⟨boot, waiting⟩ := kind
    refine ⟨rfl, ?_, accords.codes, fun no => absurd waiting (no boot), fun selected inMenu => ?_⟩
    · rw [done]
      rfl
    · cases waiting.symm.trans inMenu

end Accords

section Courses

variable {start : Core δ κ φ}
  (writable : ∀ mode : BootMode, (mode.request start.store).1 = .ok ())

include writable

/-- Presses take a device where what is entered with them leads. -/
theorem accords_presses (presses : List ButtonPress) {before : List ButtonPress}
    {dongle : Dongle δ κ φ}
    (accords : Accords start (ButtonPress.read start.codes (entries start.store) before) dongle) :
    Accords start (ButtonPress.read start.codes (entries start.store) (before ++ presses))
      (dongle.run (presses.map .press)) := by
  induction presses generalizing before dongle with
  | nil =>
    rw [List.append_nil]
    exact accords
  | cons press presses ih =>
    have next := accords_press writable accords press
    rw [← ButtonPress.read_concat] at next
    have later := ih next
    rw [List.append_assoc] at later
    exact later

/-- A pass that handles no lines takes a device where what is entered with its presses leads. -/
theorem accords_poll {before : List ButtonPress} {dongle : Dongle δ κ φ}
    (accords : Accords start (ButtonPress.read start.codes (entries start.store) before) dongle)
    (lineless : ∀ kind, DongleEvent.linesOf kind dongle.agenda = []) :
    Accords start
      (ButtonPress.read start.codes (entries start.store)
        (before ++ DongleEvent.pressesOf dongle.agenda)) dongle.poll.2 := by
  obtain ⟨wireless, presses, serial, agenda, -⟩ := dongle.orderlyPass.ordered
  have noneWireless := lineless .ble
  have noneSerial := lineless .serial
  rw [agenda, DongleEvent.linesOf_inTurn] at noneWireless noneSerial
  dsimp only at noneWireless noneSerial
  have only : dongle.agenda = presses.map .press := by
    rw [agenda, noneWireless, noneSerial]
    exact List.append_nil _
  have taken : Accords start (ButtonPress.read start.codes (entries start.store) before)
      dongle.taken := by
    rw [← dongle.step_relinked]
    exact accords.of_same rfl rfl
  rw [dongle.orderlyPass.handles, only, DongleEvent.pressesOf_presses]
  exact accords_presses writable presses taken

omit writable in
/-- A pass does not crash where no line waits. -/
theorem spares_of_lineless {dongle : Dongle δ κ φ} {more : LinkKind → List UInt8}
    (lineless : ∀ kind, dongle.lines kind (more kind) = []) (turn : Turn δ κ φ) :
    dongle.Spares turn := by
  rintro - crash crashed
  have pass := dongle.orderlyPass
  obtain ⟨earlier, kind, line, agenda, -⟩ := (pass.crashes crash).mp crashed
  obtain ⟨lost, whole, -⟩ := pass.lines
  have none := (whole kind (more kind)).trans (lineless kind)
  have own : DongleEvent.linesOf kind ([.line kind line] : List (DongleEvent δ κ φ)) = [line] :=
    (DongleEvent.linesOf_lines kind kind [line]).trans (if_pos rfl)
  rw [agenda, DongleEvent.linesOf_append, own] at none
  simp only [List.append_eq_nil_iff, List.cons_ne_nil, and_false, false_and] at none

omit writable in
/-- No pass does where no line ever comes in. -/
theorem survives_of_lineless {dongle : Dongle δ κ φ} {turns : List (Turn δ κ φ)}
    (lineless : ∀ kind, dongle.lines kind (Turn.arrived kind turns) = []) :
    dongle.Survives turns := by
  induction turns generalizing dongle with
  | nil => exact survives_nil dongle
  | cons turn turns ih =>
    have spares := spares_of_lineless lineless turn
    refine survives_cons.mpr ⟨spares, ih fun kind => ?_⟩
    have turned := (dongle.delivers_turn turn).lines spares kind (Turn.arrived kind turns)
    rw [Turn.arrived, Turn.arrived, ← List.flatMap_append] at turned
    replace turned := turned.trans (lineless kind)
    exact (List.append_eq_nil_iff.mp turned).2

omit writable in
/-- Between passes, nothing but the links and the button does anything, and nothing is handled. -/
theorem turn_keeps (dongle : Dongle δ κ φ) {turn : Turn δ κ φ} (leaves : turn.LeavesCore)
    (noPass : turn ≠ .passes) :
    (dongle.turn turn).mode = dongle.mode ∧ (dongle.turn turn).core = dongle.core ∧
      dongle.handling turn = [] := by
  cases turn with
  | passes => exact absurd rfl noPass
  | changes device store files now => exact leaves.elim
  | pushes press => exact ⟨rfl, rfl, rfl⟩
  | arrives kind bytes => cases kind <;> exact ⟨rfl, rfl, rfl⟩
  | faults kind reads connected lapses => cases kind <;> exact ⟨rfl, rfl, rfl⟩

/-- Turns in which no line is handled take a device where what is entered with the presses that are
handled leads. -/
theorem accords_course {turns : List (Turn δ κ φ)}
    (undisturbed : ∀ turn ∈ turns, turn.LeavesCore) {before : List ButtonPress}
    {dongle : Dongle δ κ φ}
    (accords : Accords start (ButtonPress.read start.codes (entries start.store) before) dongle)
    (lineless : ∀ kind, DongleEvent.linesOf kind (dongle.handled turns) = []) :
    Accords start
      (ButtonPress.read start.codes (entries start.store)
        (before ++ DongleEvent.pressesOf (dongle.handled turns))) (dongle.course turns) := by
  induction turns generalizing before dongle with
  | nil =>
    rw [show DongleEvent.pressesOf (dongle.handled []) = [] from rfl, List.append_nil]
    exact accords
  | cons turn turns ih =>
    have rest : ∀ other ∈ turns, other.LeavesCore :=
      fun other listed => undisturbed other (List.mem_cons_of_mem _ listed)
    have split (kind : LinkKind) : DongleEvent.linesOf kind (dongle.handling turn) = [] ∧
        DongleEvent.linesOf kind ((dongle.turn turn).handled turns) = [] := by
      have all := lineless kind
      rw [handled, DongleEvent.linesOf_append] at all
      exact List.append_eq_nil_iff.mp all
    have next : Accords start
        (ButtonPress.read start.codes (entries start.store)
          (before ++ DongleEvent.pressesOf (dongle.handling turn))) (dongle.turn turn) := by
      by_cases pass : turn = .passes
      · subst pass
        exact accords_poll writable accords fun kind => (split kind).1
      · obtain ⟨mode, core, nothing⟩ :=
          dongle.turn_keeps (undisturbed turn List.mem_cons_self) pass
        rw [nothing, show DongleEvent.pressesOf ([] : List (DongleEvent δ κ φ)) = [] from rfl,
          List.append_nil]
        exact accords.of_same mode core
    have later := ih rest next fun kind => (split kind).2
    rw [List.append_assoc, ← DongleEvent.pressesOf_append] at later
    exact later

/-- Where nothing but the links and the button does anything, no line ever comes in, and the links
can be read in a last pass, that pass takes a device where all presses that were pushed lead. -/
theorem accords_last {turns : List (Turn δ κ φ)} (undisturbed : ∀ turn ∈ turns, turn.LeavesCore)
    {first : Dongle δ κ φ} (fresh : first.presses = [])
    (accords : Accords start (ButtonPress.read start.codes (entries start.store) []) first)
    (lineless : ∀ kind, first.lines kind (Turn.arrived kind turns) = [])
    (readable : ∀ kind port e, (first.course turns).port? kind = some port →
      ¬port.link.channel.Fails e) :
    (first.course turns).poll.1 = .ok (first.course turns).poll.2.restart? ∧
      Accords start (ButtonPress.read start.codes (entries start.store) (Turn.pushed turns))
        (first.course turns).poll.2 := by
  have same (kind : LinkKind) :
      Turn.arrived kind (turns ++ [.passes]) = Turn.arrived kind turns := by
    rw [Turn.arrived, List.flatMap_append, List.flatMap_singleton, List.append_nil]
    rfl
  have survives : first.Survives (turns ++ [.passes]) :=
    survives_of_lineless fun kind => (congrArg (first.lines kind) (same kind)).trans (lineless kind)
  have ended : (first.course turns).poll.1 = .ok (first.course turns).poll.2.restart? := by
    have pass := (first.course turns).poll_eq
    dsimp only at pass
    rw [pass]
    cases outcome : (first.course turns).verdict with
    | ok _ => rfl
    | error fault =>
      cases fault with
      | error e =>
        obtain ⟨kind, port, there, fails⟩ := fails_of_verdict outcome
        exact absurd fails (readable kind port e there)
      | crash crash =>
        refine absurd ?_ (survives turns .passes [] rfl rfl crash)
        rw [pass, outcome]
        rfl
  refine ⟨ended, ?_⟩
  have polled : first.course (turns ++ [.passes]) = (first.course turns).poll.2 :=
    List.foldl_append
  have whole := first.delivers_course (turns ++ [.passes])
  have noLine (kind : LinkKind) :
      DongleEvent.linesOf kind (first.handled (turns ++ [.passes])) = [] := by
    have lines := whole.lines survives kind []
    rw [List.append_nil, same, lineless] at lines
    exact (List.append_eq_nil_iff.mp lines).1
  have left : (first.course (turns ++ [.passes])).presses = [] := by
    have own := (first.course turns).delivers_poll.presses
    rw [(first.course turns).orderlyPass.complete _ ended, DongleEvent.pressesOf_inTurn] at own
    rw [polled]
    exact List.append_cancel_left own
  have handled :
      DongleEvent.pressesOf (first.handled (turns ++ [.passes])) = Turn.pushed turns := by
    have presses := whole.presses
    rw [left, fresh, List.append_nil, Turn.pushed, List.flatMap_append, List.flatMap_singleton,
      List.append_nil] at presses
    exact presses
  have leaves : ∀ turn ∈ turns ++ [.passes], turn.LeavesCore := by
    intro turn listed
    cases List.mem_append.mp listed with
    | inl among => exact undisturbed turn among
    | inr last =>
      cases List.mem_singleton.mp last
      trivial
  have reached := accords_course writable leaves accords noLine
  rw [handled, polled] at reached
  exact reached

end Courses

/-- A device that has just been started with a login code. -/
def booted (settings : Settings) (primary : Pin) (device : δ) (store : κ) (files : Option φ) :
    Dongle δ κ φ where
  core := Core.ofSettings settings { settings.codes with primary } device store files

/-- From a start on a store that keeps a login code and takes requests for modes, with no line ever
coming in: once the presses that were pushed are handled, however they fell among the passes, the
button works what they enter as a whole (`ButtonPress.read`), and exactly the errands that they
enter have been done. A mode that they lead to is found in the store. -/
theorem mode_of_presses (settings : Settings) (device : δ) (store : κ) (files : Option φ)
    {primary : Pin} (persisted : AccessCodes.stored? store = some primary)
    (writable : ∀ mode : BootMode, (mode.request store).1 = .ok ()) :
    let started := booted settings primary device store files
    start settings device store files = (.ok started, store) ∧
      ∀ (screen : Option Screen) (serial wireless : Option Channel) (turns : List (Turn δ κ φ)),
        let first := started.equipped screen serial wireless
        let upshot := ButtonPress.read { settings.codes with primary := primary }
          (Credentials.load store).list.length (Turn.pushed turns)
        let last := (first.course turns).poll
        (∀ turn ∈ turns, turn.LeavesCore) →
          (∀ kind, first.lines kind (Turn.arrived kind turns) = []) →
          (∀ kind port e, (first.course turns).port? kind = some port →
            ¬port.link.channel.Fails e) →
          last.1 = .ok last.2.restart? ∧ last.2.mode = upshot.mode ∧
            last.2.core = upshot.errands.foldl Errand.effect started.core ∧
            ∀ (view : KeyValueStore.View κ), view.Fit store → ∀ mode,
              upshot.mode = .restart mode →
                KeyValueStore.getBool? (view.look last.2.core.store) mode.space mode.key =
                  some true := by
  intro started
  refine ⟨?_, ?_⟩
  · unfold start AccessCodes.loadPrimary
    rw [persisted]
    rfl
  intro screen serial wireless turns first upshot last undisturbed lineless readable
  obtain ⟨core, mode, presses⟩ := equipped_keeps screen serial wireless started
  have accords : Accords started.core
      (ButtonPress.read started.core.codes (entries started.core.store) []) first := by
    refine Accords.of_same ⟨rfl, rfl, rfl, fun _ => rfl, fun selected inMenu => ?_⟩ mode core
    exact nomatch inMenu
  obtain ⟨ended, reached⟩ := accords_last writable undisturbed presses accords lineless readable
  refine ⟨ended, reached.mode, reached.core, fun view fit boot waiting => ?_⟩
  have errands : upshot.errands = [.request boot] := ButtonPress.errands_of_restart _ _ waiting
  have stored : last.2.core.store = (boot.request store).2 := by
    rw [reached.core]
    change (upshot.errands.foldl Errand.effect started.core).store = _
    rw [errands]
    rfl
  rw [stored]
  exact boot.getBool?_request view fit (writable boot)

/-- A store with a login code and two credentials. -/
def codedStore : MemoryStore := (AccessCodes.setPrimary {} (.ofNats 1 1 2 2) pairStore).2.2

/-- A wrong code, the right one, and three short presses in the menu. -/
def menuPresses : List ButtonPress :=
  [.long, .long, .long, .short, .short, .long] ++ codePresses ++ [.short, .short, .short]

/-- A device that has just been started on that store. -/
def codedDongle : Dongle Recording MemoryStore MemoryFiles :=
  (booted {} (.ofNats 1 1 2 2) {} codedStore (some {})).equipped none none none

/-- In a menu of two entries, three short presses select the second. -/
theorem mode_of_presses_menu :
    (codedDongle.course (menuPresses.map .pushes)).poll.2.mode = .menu 1 := by
  have persisted : AccessCodes.stored? codedStore = some (.ofNats 1 1 2 2) := by decide +kernel
  have writable (mode : BootMode) : (mode.request codedStore).1 = .ok () := by
    cases mode <;> rfl
  have leaves : ∀ turn ∈ (menuPresses.map .pushes : List (Turn Recording MemoryStore MemoryFiles)),
      turn.LeavesCore := by
    intro turn listed
    obtain ⟨press, _, rfl⟩ := List.mem_map.mp listed
    trivial
  have lineless (kind : LinkKind) :
      codedDongle.lines kind (Turn.arrived kind (menuPresses.map .pushes :
        List (Turn Recording MemoryStore MemoryFiles))) = [] := by
    cases kind <;> rfl
  have noPort (kind : LinkKind) :
      (codedDongle.course (menuPresses.map .pushes)).port? kind = none := by
    cases kind <;> rfl
  have readable (kind : LinkKind) (port : Port) (e : LinkError)
      (there : (codedDongle.course (menuPresses.map .pushes)).port? kind = some port) :
      ¬port.link.channel.Fails e := by
    rw [noPort] at there
    cases there
  have reached := (mode_of_presses {} ({} : Recording) codedStore (some ({} : MemoryFiles))
    persisted writable).2 none none none (menuPresses.map .pushes) leaves lineless readable
  have entered :
      (ButtonPress.read {} (Credentials.load codedStore).list.length
        (Turn.pushed (menuPresses.map .pushes :
          List (Turn Recording MemoryStore MemoryFiles)))).mode = .menu 1 := by decide +kernel
  unfold codedDongle
  exact Eq.trans reached.2.1 entered

end Dongle

end Keyfob
