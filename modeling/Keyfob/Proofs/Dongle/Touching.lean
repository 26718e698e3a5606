import Keyfob.Hid.Recording
import Keyfob.Proofs.Dongle.Delivery
import Keyfob.Proofs.Session.Touching

/-!
# Lines that never touch the host

However bytes come in, presses are pushed, passes are made and things fail, no line of a serial link
is ever typed on the host, and none that a dialog takes for a login code, for credentials or for a
new login code (`Dongle.untouched`): the sessions keep their kinds of link along every course
(`Dongle.kind?_course`), and what handling a line may do is up to the kind and the state of its
session.
-/
namespace Keyfob

variable {δ κ φ : Type}

namespace Dongle

/-- The kind of the session on a link, if there is one. -/
def kind? (dongle : Dongle δ κ φ) (place : LinkKind) : Option LinkKind :=
  (dongle.port? place).map fun port => port.session.kind

/-- A dialog takes a line for the answer to the question that it asked. -/
def Answers (dongle : Dongle δ κ φ) (place : LinkKind) (line : Line) : Prop :=
  ∃ port question, dongle.port? place = some port ∧ port.session.state = .asking question ∧
    line.isAside port.session.kind = false

/-! ## Sessions keep their kinds -/

/-- A port with the same kind of session keeps the kind on its link. -/
theorem kind?_withPort {dongle : Dongle δ κ φ} {place : LinkKind} {port after : Port}
    (there : dongle.port? place = some port) (same : after.session.kind = port.session.kind)
    (other : LinkKind) : (dongle.withPort place after).kind? other = dongle.kind? other := by
  unfold kind?
  cases place with
  | serial =>
    cases other with
    | serial =>
      rw [port?_withPort, there]
      exact congrArg some same
    | ble => rfl
  | ble =>
    cases other with
    | serial => rfl
    | ble =>
      rw [port?_withPort, there]
      exact congrArg some same

/-- Taking lines from a link keeps the kinds. -/
theorem kind?_taking (dongle : Dongle δ κ φ) (place other : LinkKind) :
    (dongle.taking place).kind? other = dongle.kind? other := by
  cases there : dongle.port? place with
  | none => rw [(takes_of_none there).2]
  | some port =>
    have same : (port.taken (dongle.cap? place)).session.kind = port.session.kind := rfl
    rw [(takes_of_some there).2]
    exact kind?_withPort there same other

/-- Changing a channel keeps the kinds. -/
theorem kind?_onChannel (dongle : Dongle δ κ φ) (place other : LinkKind)
    (change : Channel → Channel) :
    (dongle.onChannel place change).kind? other = dongle.kind? other := by
  obtain ⟨core, serial, wireless, mode, presses, screen⟩ := dongle
  cases place with
  | serial =>
    cases other with
    | serial => cases serial <;> rfl
    | ble => rfl
  | ble =>
    cases other with
    | serial => rfl
    | ble => cases wireless <;> rfl

section Handling

variable [Device δ] [KeyValueStore κ] [FileStore φ]

/-- So does taking everything that a pass takes. -/
theorem kind?_taken (dongle : Dongle δ κ φ) (place : LinkKind) :
    dongle.taken.kind? place = dongle.kind? place := by
  unfold taken
  split
  · exact dongle.kind?_taking .ble place
  · split
    · exact dongle.kind?_taking .ble place
    · cases place with
      | serial => exact dongle.kind?_taking .serial .serial
      | ble => exact dongle.kind?_taking .ble .ble

/-- A line that is served keeps the kinds. -/
theorem kind?_serveLine (dongle : Dongle δ κ φ) (place other : LinkKind) (line : Line) :
    (dongle.serveLine place line).kind? other = dongle.kind? other := by
  unfold serveLine
  cases there : dongle.port? place with
  | none => rfl
  | some port =>
    have same : (port.serveLine dongle.core line).2.1.session.kind = port.session.kind := by
      rw [(Port.serveLine_eq port dongle.core line).1]
      exact Session.kind_serve port.session line dongle.core port.link
    have kept := kind?_withPort there same other
    cases other <;> exact kept

/-- So does whatever a pass handles. -/
theorem kind?_run {events : List (DongleEvent δ κ φ)}
    (handled : ∀ event ∈ events, (∃ place line, event = .line place line) ∨
      ∃ button, event = .press button) (dongle : Dongle δ κ φ) (place : LinkKind) :
    (dongle.run events).kind? place = dongle.kind? place := by
  induction events generalizing dongle with
  | nil => rfl
  | cons event events ih =>
    have later := ih (fun other listed => handled other (List.mem_cons_of_mem _ listed))
      (dongle.step event)
    refine later.trans ?_
    obtain ⟨other, line, rfl⟩ | ⟨button, rfl⟩ := handled event List.mem_cons_self
    · exact dongle.kind?_serveLine other place line
    · obtain ⟨serial, wireless, _⟩ := links_press dongle button
      change (dongle.press button).kind? place = dongle.kind? place
      unfold kind?
      cases place with
      | serial => simp only [port?, serial]
      | ble => simp only [port?, wireless]

/-- Along every course, the sessions keep their kinds. -/
theorem kind?_course (first : Dongle δ κ φ) (turns : List (Turn δ κ φ)) (place : LinkKind) :
    (first.course turns).kind? place = first.kind? place := by
  induction turns generalizing first with
  | nil => rfl
  | cons turn turns ih =>
    refine (ih (first.turn turn)).trans ?_
    cases turn with
    | arrives other bytes => exact first.kind?_onChannel other place _
    | pushes press => cases place <;> rfl
    | passes =>
      change first.poll.2.kind? place = first.kind? place
      rw [first.orderlyPass.handles, kind?_run (fun _ => first.mem_agenda), kind?_taken]
    | changes device store files now => cases place <;> rfl
    | faults other reads connected lapses => exact first.kind?_onChannel other place _

/-! ## What never touches the host -/

/-- A line of a serial link, or one that a dialog takes for an answer, leaves the host as it is or,
where it fails, lets go of everything. -/
theorem device_serveLine {dongle : Dongle δ κ φ} {place : LinkKind} {line : Line}
    (withheld : dongle.kind? place = some .serial ∨ dongle.Answers place line) :
    (dongle.serveLine place line).core.device = dongle.core.device ∨
      (dongle.serveLine place line).core.device =
        (Device.perform .releaseAll dongle.core.device).2 := by
  unfold serveLine
  cases there : dongle.port? place with
  | none => exact .inl rfl
  | some port =>
    have untouching : ¬port.session.MayTouch line dongle.core := by
      obtain serial | ⟨other, question, same, asking, significant⟩ := withheld
      · unfold kind? at serial
        rw [there] at serial
        rintro ⟨wireless, _, _⟩
        exact nomatch wireless.symm.trans (Option.some.inj serial)
      · cases there.symm.trans same
        exact Session.not_mayTouch_of_answer asking significant
    dsimp only
    rw [(Port.serveLine_eq port dongle.core line).2.2.1]
    exact Session.device_serve untouching port.link

end Handling

/-- Handling a line does something to the host only over a wireless link that is not collecting a
macro, and only where the line is a live action or, in an idle session, plays a file that is there
or is none of the commands while relaying is switched on. So along every course, whatever comes in
and whatever fails, no line of a serial link does anything to the host, and none that a dialog
takes for an answer, but for letting go of everything where the line failed. The device is any
device, also one that keeps a list of all it is told to do: as it was means that nothing was. -/
theorem untouched :
    (∀ {δ κ φ ρ : Type} [Device δ] [KeyValueStore κ] [FileStore φ] [ReplyPort ρ]
      (session : Session) (line : Line) (core : Core δ κ φ) (port : ρ),
      (session.handle line core port).2.2.1.device ≠ core.device → session.MayTouch line core) ∧
    ∀ {δ κ φ : Type} [Device δ] [KeyValueStore κ] [FileStore φ] (first : Dongle δ κ φ)
      (turns : List (Turn δ κ φ)),
      let passing := first.course turns
      passing.poll.2 = passing.taken.run passing.agenda ∧
      ∀ earlier place line later, passing.agenda = earlier ++ .line place line :: later →
        let reached := passing.taken.run earlier
        first.kind? place = some .serial ∨ reached.Answers place line →
          (reached.step (.line place line)).core.device = reached.core.device ∨
            (reached.step (.line place line)).core.device =
              (Device.perform .releaseAll reached.core.device).2 := by
  refine ⟨fun session line core port touched => Session.mayTouch_of_handled touched, ?_⟩
  intro δ κ φ _ _ _ first turns passing
  refine ⟨passing.orderlyPass.handles, ?_⟩
  intro earlier place line later split reached withheld
  have among : ∀ event ∈ earlier, (∃ place line, event = .line place line) ∨
      ∃ button, event = .press button := fun event listed => by
    refine passing.mem_agenda ?_
    rw [split]
    exact List.mem_append_left _ listed
  have kept : reached.kind? place = first.kind? place := by
    change (passing.taken.run earlier).kind? place = first.kind? place
    rw [kind?_run among, kind?_taken, kind?_course]
  rw [← kept] at withheld
  exact device_serveLine withheld

/-- The login code of an update, over a link that relays what is no command, is typed nowhere. -/
theorem untouched_login :
    let first : Dongle Recording MemoryStore MemoryFiles :=
      withWireless { core := Core.ofSettings {} {} {} {} (some {}) } { kind := .ble }
    let passing := first.course [.arrives .ble (Text.utf8 "PWUPDATE\n1122\n")]
    let reached := passing.taken.run [.line .ble { text := "PWUPDATE" }]
    reached.Answers .ble { text := "1122" } ∧
      ((reached.step (.line .ble { text := "1122" })).core.device = reached.core.device ∨
        (reached.step (.line .ble { text := "1122" })).core.device =
          (Device.perform .releaseAll reached.core.device).2) := by
  intro first passing reached
  have asked : (reached.wireless.map fun port => port.session.state) =
      some (.asking .codeForUpdate) := by decide +kernel
  obtain ⟨port, there, asking⟩ := Option.map_eq_some_iff.mp asked
  have answers : reached.Answers .ble { text := "1122" } := by
    refine ⟨port, .codeForUpdate, there, asking, ?_⟩
    cases port.session.kind <;> decide +kernel
  have agenda : passing.agenda =
      [.line .ble { text := "PWUPDATE" }, .line .ble { text := "1122" }] := by
    have ended : passing.poll.1.toOption = some none := by decide +kernel
    have wireless : (passing.lines .ble []).take passing.core.settings.wirelessCap =
        [{ text := "PWUPDATE" }, { text := "1122" }] := by decide +kernel
    cases verdict : passing.poll.1 with
    | error fault =>
      rw [verdict] at ended
      cases ended
    | ok restart =>
      rw [passing.orderlyPass.complete restart verdict, wireless]
      rfl
  exact ⟨answers, (untouched.2 first [.arrives .ble (Text.utf8 "PWUPDATE\n1122\n")]).2
    [.line .ble { text := "PWUPDATE" }] .ble { text := "1122" } [] agenda (.inr answers)⟩

end Dongle

end Keyfob
