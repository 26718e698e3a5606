import Keyfob.Hid.Recording
import Keyfob.Proofs.Dongle.Orderly
import Keyfob.Proofs.Link.Delivery
import Keyfob.Proofs.Session.Crashing
import Mathlib.Control.Monad.Basic

/-!
# Everything is handled once and in order

Bytes come in, presses are pushed, passes of the main loop are made, and hosts, stores, files and
links fail and work again, in any order (`Turn`). Whatever of it happens, the presses are those
handled so far and then those that wait, and unless a pass crashes, so are each link's lines
(`Dongle.delivered`). A pass crashes just where one of its lines lists names that are in no order or
plays a script that crashes, and then lines that were taken with that one may be lost. What is
handled is the agendas of the passes: handling a line or a press takes nothing from a link or from
the presses that wait (`Dongle.Leaves`), so that what a pass takes is just what is on its agenda.
-/
namespace Keyfob

variable {δ κ φ : Type}

/-- Something that happens to a device between passes of its main loop, or a pass. -/
inductive Turn (δ κ φ : Type) where
  /-- Bytes come in on a link, if the device has that link. -/
  | arrives (kind : LinkKind) (bytes : List UInt8)
  /-- A press is pushed to those that wait. -/
  | pushes (press : ButtonPress)
  /-- A pass of the main loop is made. -/
  | passes
  /-- The host, the store, the files and the time become what they become outside. -/
  | changes (device : δ) (store : κ) (files : Option φ) (now : Instant)
  /-- A link fails and works as told from now on. -/
  | faults (kind : LinkKind) (reads : Allowance) (connected : Bool) (lapses : Lapses)

namespace Turn

/-- The bytes that come in on a link. -/
def arrived (kind : LinkKind) (turns : List (Turn δ κ φ)) : List UInt8 :=
  turns.flatMap fun
    | .arrives other bytes => if other = kind then bytes else []
    | _ => []

/-- What comes in on a link comes in on that link only. -/
theorem arrived_arrives (kind other : LinkKind) (bytes : List UInt8) :
    arrived other ([.arrives kind bytes] : List (Turn δ κ φ)) =
      if kind = other then bytes else [] := List.append_nil _

/-- The presses that are pushed. -/
def pushed (turns : List (Turn δ κ φ)) : List ButtonPress :=
  turns.flatMap fun
    | .pushes press => [press]
    | _ => []

end Turn

namespace DongleEvent

/-- The lines of a link among what happens. -/
def linesOf (kind : LinkKind) (events : List (DongleEvent δ κ φ)) : List Line :=
  events.flatMap fun
    | .line other content => if other = kind then [content] else []
    | _ => []

/-- The presses among what happens. -/
def pressesOf (events : List (DongleEvent δ κ φ)) : List ButtonPress :=
  events.flatMap fun
    | .press button => [button]
    | _ => []

/-- What happens in two parts has the lines of both. -/
theorem linesOf_append (kind : LinkKind) (first second : List (DongleEvent δ κ φ)) :
    linesOf kind (first ++ second) = linesOf kind first ++ linesOf kind second :=
  List.flatMap_append

/-- What happens in two parts has the presses of both. -/
theorem pressesOf_append (first second : List (DongleEvent δ κ φ)) :
    pressesOf (first ++ second) = pressesOf first ++ pressesOf second := List.flatMap_append

/-- Lines of a link are lines of that link only. -/
theorem linesOf_lines (kind other : LinkKind) (lines : List Line) :
    linesOf kind (lines.map (.line other) : List (DongleEvent δ κ φ)) =
      if other = kind then lines else [] := by
  unfold linesOf
  rw [List.flatMap_map]
  dsimp only
  split
  · exact List.flatMap_singleton' lines
  · exact List.flatMap_eq_nil_iff.mpr fun _ _ => rfl

/-- Presses are no lines. -/
theorem linesOf_presses (kind : LinkKind) (presses : List ButtonPress) :
    linesOf kind (presses.map .press : List (DongleEvent δ κ φ)) = [] := by
  unfold linesOf
  rw [List.flatMap_map]
  exact List.flatMap_eq_nil_iff.mpr fun _ _ => rfl

/-- Presses are themselves. -/
theorem pressesOf_presses (presses : List ButtonPress) :
    pressesOf (presses.map .press : List (DongleEvent δ κ φ)) = presses := by
  unfold pressesOf
  rw [List.flatMap_map]
  exact List.flatMap_singleton' presses

/-- Lines are no presses. -/
theorem pressesOf_lines (kind : LinkKind) (lines : List Line) :
    pressesOf (lines.map (.line kind) : List (DongleEvent δ κ φ)) = [] := by
  unfold pressesOf
  rw [List.flatMap_map]
  exact List.flatMap_eq_nil_iff.mpr fun _ _ => rfl

/-- Lines of the wireless link, then presses, and then lines of the serial link. -/
def inTurn (wireless : List Line) (presses : List ButtonPress) (serial : List Line) :
    List (DongleEvent δ κ φ) :=
  wireless.map (.line .ble) ++ (presses.map .press ++ serial.map (.line .serial))

section InTurn

variable (wireless : List Line) (presses : List ButtonPress) (serial : List Line)

/-- The presses of what happens in turn. -/
theorem pressesOf_inTurn :
    pressesOf (inTurn wireless presses serial : List (DongleEvent δ κ φ)) = presses := by
  unfold inTurn
  rw [pressesOf_append, pressesOf_append, pressesOf_lines, pressesOf_presses, pressesOf_lines]
  exact List.append_nil presses

/-- The lines of what happens in turn. -/
theorem linesOf_inTurn (kind : LinkKind) :
    linesOf kind (inTurn wireless presses serial : List (DongleEvent δ κ φ)) =
      match kind with
      | .serial => serial
      | .ble => wireless := by
  unfold inTurn
  rw [linesOf_append, linesOf_append, linesOf_lines, linesOf_presses, linesOf_lines]
  cases kind with
  | serial => rfl
  | ble => exact List.append_nil wireless

end InTurn

end DongleEvent

namespace Dongle

open DongleEvent

/-! ## What waits -/

/-- The lines of a link that have not been taken, if more bytes come in. -/
def lines (dongle : Dongle δ κ φ) (kind : LinkKind) (more : List UInt8) : List Line :=
  match dongle.port? kind with
  | none => []
  | some port => port.link.lines more

/-- What is not touched where a line or a press is handled: what waits, and what the owner has
chosen. -/
structure Leaves (before after : Dongle δ κ φ) : Prop where
  /-- The lines that wait are left. -/
  lines : ∀ kind more, after.lines kind more = before.lines kind more
  /-- The presses that wait are left. -/
  presses : after.presses = before.presses
  /-- The settings are left. -/
  settings : after.core.settings = before.core.settings

/-- What is left twice is left. -/
theorem Leaves.trans {first second third : Dongle δ κ φ} (earlier : first.Leaves second)
    (later : second.Leaves third) : first.Leaves third :=
  ⟨fun kind more => (later.lines kind more).trans (earlier.lines kind more),
    later.presses.trans earlier.presses, later.settings.trans earlier.settings⟩

/-- The lines stay where a port is replaced by one with the same lines. -/
theorem lines_withPort {dongle : Dongle δ κ φ} {kind : LinkKind} {port after : Port}
    {more : List UInt8} (there : dongle.port? kind = some port)
    (same : after.link.lines more = port.link.lines more) (other : LinkKind) :
    (dongle.withPort kind after).lines other more = dongle.lines other more := by
  by_cases own : other = kind
  · subst own
    unfold lines
    rw [port?_withPort, there]
    exact same
  · have apart : (dongle.withPort kind after).port? other = dongle.port? other := by
      cases kind with
      | serial => cases other with
        | serial => exact absurd rfl own
        | ble => rfl
      | ble => cases other with
        | serial => rfl
        | ble => exact absurd rfl own
    unfold lines
    rw [apart]

section Handling

variable [Device δ] [KeyValueStore κ] [FileStore φ]

/-- Every host is restful if nothing is asked of it. -/
theorem restful_of_any : Device.Restful (fun _ : δ => True) :=
  ⟨fun _ _ _ => trivial, fun _ => trivial⟩

/-- A press takes nothing of what waits. -/
theorem leaves_press (dongle : Dongle δ κ φ) (button : ButtonPress) :
    dongle.Leaves (dongle.press button) := by
  obtain ⟨serial, wireless, presses⟩ := links_press dongle button
  refine ⟨fun kind more => ?_, presses, (dongle.press_orderly restful_of_any button).settings⟩
  unfold lines
  cases kind with
  | serial => simp only [port?, serial]
  | ble => simp only [port?, wireless]

/-- A line that is served takes nothing of what waits. -/
theorem leaves_serveLine (dongle : Dongle δ κ φ) (kind : LinkKind) (line : Line) :
    dongle.Leaves (dongle.serveLine kind line) := by
  have settings := (dongle.serveLine_orderly restful_of_any kind line).settings
  unfold serveLine at settings ⊢
  cases there : dongle.port? kind with
  | none => exact ⟨fun _ _ => rfl, rfl, rfl⟩
  | some port =>
    rw [there] at settings
    refine ⟨fun other more => ?_, by cases kind <;> rfl, settings⟩
    have answered :
        (port.serveLine dongle.core line).2.1.link.lines more = port.link.lines more := by
      rw [(Port.serveLine_eq port dongle.core line).2.1]
      obtain ⟨_, _, kept⟩ := port.session.serve_orderly restful_of_any
        (fun t link same => (link.lines_sendLine t more).trans same :
          ∀ (t : Text) (link : LineLink), link.lines more = port.link.lines more →
            (link.sendLine t).2.lines more = port.link.lines more)
        line dongle.core port.link
      exact kept rfl
    exact lines_withPort there answered other

/-- Handling lines and presses takes nothing of what waits. -/
theorem leaves_run {events : List (DongleEvent δ κ φ)}
    (handled : ∀ event ∈ events, (∃ kind line, event = .line kind line) ∨
      ∃ button, event = .press button) (dongle : Dongle δ κ φ) :
    dongle.Leaves (dongle.run events) := by
  induction events generalizing dongle with
  | nil => exact ⟨fun _ _ => rfl, rfl, rfl⟩
  | cons event events ih =>
    have later := ih (fun other listed => handled other (List.mem_cons_of_mem _ listed))
      (dongle.step event)
    refine Leaves.trans ?_ later
    obtain ⟨kind, line, rfl⟩ | ⟨button, rfl⟩ := handled event List.mem_cons_self
    · exact dongle.leaves_serveLine kind line
    · exact dongle.leaves_press button

end Handling

/-! ## What a pass takes is what is on its agenda -/

/-- What is taken from a link is the front of its lines, as far as its cap allows; where the link
cannot be read, a read failed and all the lines stay. -/
theorem lines_taking (dongle : Dongle δ κ φ) (kind : LinkKind) :
    (∀ e, dongle.takes kind = .error e →
      (∃ port, dongle.port? kind = some port ∧ port.link.channel.Fails e) ∧
        ∀ more, (dongle.taking kind).lines kind more = dongle.lines kind more) ∧
    ∀ taken, dongle.takes kind = .ok taken →
      taken = (dongle.lines kind []).take ((dongle.cap? kind).getD (dongle.lines kind []).length) ∧
        ∀ more, taken ++ (dongle.taking kind).lines kind more = dongle.lines kind more := by
  cases there : dongle.port? kind with
  | none =>
    obtain ⟨takes, taking⟩ := takes_of_none there
    rw [takes, taking]
    refine ⟨nofun, fun taken ended => ?_⟩
    cases ended
    refine ⟨?_, fun more => rfl⟩
    unfold lines
    rw [there]
    exact List.take_nil.symm
  | some port =>
    obtain ⟨takes, taking⟩ := takes_of_some there
    obtain ⟨failing, going⟩ := port.link.lines_drain (dongle.cap? kind)
    have before (more : List UInt8) : dongle.lines kind more = port.link.lines more := by
      unfold lines
      rw [there]
    have after (more : List UInt8) : (dongle.taking kind).lines kind more =
        (port.link.drain (dongle.cap? kind)).2.lines more := by
      unfold lines
      rw [taking, port?_withPort]
      rfl
    rw [takes]
    refine ⟨fun e ended => ?_, fun taken ended => ?_⟩
    · obtain ⟨fails, kept⟩ := failing e ended
      exact ⟨⟨port, rfl, fails⟩, fun more => by rw [after, before, kept]⟩
    · obtain ⟨front, kept⟩ := going taken ended
      exact ⟨by rw [before, front], fun more => by rw [after, before, kept]⟩

/-- What is taken from a link and what stays are its lines. -/
theorem lines_of_takes (dongle : Dongle δ κ φ) (kind : LinkKind) (more : List UInt8) :
    (dongle.takes kind).toOption.getD [] ++ (dongle.taking kind).lines kind more =
      dongle.lines kind more := by
  obtain ⟨stay, front⟩ := dongle.lines_taking kind
  cases read : dongle.takes kind with
  | error e => exact (stay e read).2 more
  | ok taken => exact (front taken read).2 more

/-- There are no more lines of the wireless link than the cap among them. -/
theorem length_of_takes {dongle : Dongle δ κ φ} {wireless : List Line}
    (read : dongle.takes .ble = .ok wireless) :
    wireless.length ≤ dongle.core.settings.wirelessCap := by
  rw [((dongle.lines_taking .ble).2 wireless read).1]
  exact List.length_take_le _ _

section Passes

variable [Device δ] [KeyValueStore κ] [FileStore φ]

/-- Where a pass ends well, the serial link could be read. -/
theorem exists_takes_of_verdict {dongle : Dongle δ κ φ} (ended : dongle.verdict = .ok ()) :
    ∃ serial, dongle.takes .serial = .ok serial := by
  unfold verdict at ended
  split at ended
  · cases ended
  split at ended
  · cases ended
  cases also : dongle.takes .serial with
  | error e =>
    rw [also] at ended
    cases ended
  | ok serial => exact ⟨serial, rfl⟩

/-- Of lines that are to happen the first ones do, all of them where none crashes. -/
theorem happening_lines (dongle : Dongle δ κ φ) (kind : LinkKind) (lines : List Line) :
    ∃ front lost, front ++ lost = lines ∧
      dongle.happening (lines.map (.line kind)) = front.map (.line kind) ∧
      (dongle.outcomes (lines.map (.line kind)) = .ok () → lost = []) := by
  obtain ⟨front, ⟨lost, whole⟩, same⟩ :=
    List.prefix_map_iff.mp (dongle.happening_isPrefix (lines.map (.line kind)))
  refine ⟨front, lost, whole, same, fun survived => ?_⟩
  rw [happening_of_ok survived, ← whole, List.map_append] at same
  exact List.map_eq_nil_iff.mp (List.append_right_eq_self.mp same)

/-- What becomes of what a pass takes: presses and lines are handled, and the lines behind one that
crashes are lost. -/
structure Portions (dongle : Dongle δ κ φ) (handled lost : LinkKind → List Line)
    (presses : List ButtonPress) : Prop where
  /-- Lines of the wireless link are handled, presses, and lines of the serial link, in turn. -/
  agenda : dongle.agenda = inTurn (handled .ble) presses (handled .serial)
  /-- There are no more lines of the wireless link than the cap. -/
  short : (handled .ble).length ≤ dongle.core.settings.wirelessCap
  /-- The other presses still wait. -/
  pressed : presses ++ dongle.taken.presses = dongle.presses
  /-- The other lines still wait. -/
  lines : ∀ kind more,
    handled kind ++ lost kind ++ dongle.taken.lines kind more = dongle.lines kind more
  /-- Nothing is lost unless a line crashes. -/
  spared : (∀ crash, dongle.verdict ≠ .error (.crash crash)) → ∀ kind, lost kind = []
  /-- Where the pass ends well, all that waits is handled, but for the cap. -/
  complete : dongle.verdict = .ok () →
    handled .ble = (dongle.lines .ble []).take dongle.core.settings.wirelessCap ∧
      presses = dongle.presses ∧ handled .serial = dongle.lines .serial []

/-- Where the wireless link cannot be read, nothing is handled, and everything waits. -/
theorem portions_of_unread {dongle : Dongle δ κ φ} {e : LinkError}
    (unread : dongle.takes .ble = .error e) :
    dongle.Portions (fun _ => []) (fun _ => []) [] := by
  obtain ⟨taken, plan, verdict⟩ := taken_of_unread unread
  refine ⟨?_, Nat.zero_le _, ?_, fun kind more => ?_, fun _ _ => rfl, fun ended => ?_⟩
  · rw [agenda, plan]
    rfl
  · rw [taken]
    rfl
  · rw [taken]
    cases kind with
    | serial => rfl
    | ble => exact ((dongle.lines_taking .ble).1 e unread).2 more
  · rw [verdict] at ended
    cases ended

/-- Where a line of the wireless link crashes, lines of that link are handled up to this one, and
those behind it are lost. Presses and the lines of the serial link wait. -/
theorem portions_of_crash {dongle : Dongle δ κ φ} {wireless : List Line} {crash : Crash}
    (read : dongle.takes .ble = .ok wireless)
    (air : (dongle.taking .ble).outcomes (wireless.map (.line .ble)) = .error crash) :
    ∃ handled lost, dongle.Portions handled lost [] := by
  obtain ⟨taken, plan, verdict⟩ := taken_of_crash read air
  obtain ⟨front, lost, rfl, happens, -⟩ := (dongle.taking .ble).happening_lines .ble wireless
  refine ⟨fun | .ble => front | .serial => [], fun | .ble => lost | .serial => [], ?_, ?_, ?_,
    fun kind more => ?_, fun survives => absurd verdict (survives crash), fun ended => ?_⟩
  · rw [agenda, plan, taken, happens]
    exact (List.append_nil _).symm
  · have short := length_of_takes read
    rw [List.length_append] at short
    exact Nat.le_trans (Nat.le_add_right _ _) short
  · rw [taken]
    rfl
  · rw [taken]
    cases kind with
    | serial => rfl
    | ble => exact ((dongle.lines_taking .ble).2 _ read).2 more
  · rw [verdict] at ended
    cases ended

/-- Otherwise all lines that are taken from the wireless link are handled, and all presses; and if a
line of the serial link crashes, those behind it are lost. -/
theorem portions_of_ok {dongle : Dongle δ κ φ} {wireless : List Line}
    (read : dongle.takes .ble = .ok wireless)
    (air : (dongle.taking .ble).outcomes (wireless.map (.line .ble)) = .ok ()) :
    ∃ handled lost, dongle.Portions handled lost dongle.presses := by
  obtain ⟨taken, plan, verdict⟩ := taken_of_ok read air
  have survived := outcomes_onAir dongle.presses air (dongle.taking .serial).serial []
  obtain ⟨happens, ends⟩ := (happening_append _ _
    (((dongle.takes .serial).toOption.getD []).map (.line .serial))).2 survived
  rw [← taken, ← plan] at happens ends
  obtain ⟨front, lost, whole, same, spared⟩ := (dongle.taken.run
    (wireless.map (.line .ble) ++ dongle.presses.map .press)).happening_lines .serial
      ((dongle.takes .serial).toOption.getD [])
  have lossless : (∀ crash, dongle.verdict ≠ .error (.crash crash)) → lost = [] := by
    intro survives
    cases ended : dongle.taken.outcomes dongle.plan with
    | error crash =>
      rw [ended] at verdict
      exact absurd verdict (survives crash)
    | ok _ => exact spared (ends.symm.trans ended)
  refine ⟨fun | .ble => wireless | .serial => front, fun | .ble => [] | .serial => lost, ?_,
    length_of_takes read, ?_, fun kind more => ?_, fun survives kind => ?_, fun ended => ?_⟩
  · rw [agenda, happens, same]
    exact List.append_assoc _ _ _
  · rw [taken]
    exact List.append_nil _
  · rw [taken]
    cases kind with
    | serial => exact (congrArg (· ++ _) whole).trans (dongle.lines_of_takes .serial more)
    | ble =>
      have own := dongle.lines_of_takes .ble more
      rw [read] at own
      exact (congrArg (· ++ _) (List.append_nil _)).trans own
  · cases kind with
    | serial => exact lossless survives
    | ble => rfl
  · refine ⟨((dongle.lines_taking .ble).2 wireless read).1, rfl, ?_⟩
    obtain ⟨serial, also⟩ := exists_takes_of_verdict ended
    rw [lossless (ended ▸ fun _ => nofun), List.append_nil, also] at whole
    exact (whole.trans ((dongle.lines_taking .serial).2 serial also).1).trans List.take_length

/-- What a pass takes is divided so. -/
theorem exists_portions (dongle : Dongle δ κ φ) :
    ∃ handled lost presses, dongle.Portions handled lost presses := by
  cases read : dongle.takes .ble with
  | error e => exact ⟨_, _, _, portions_of_unread read⟩
  | ok wireless =>
    cases air : (dongle.taking .ble).outcomes (wireless.map (.line .ble)) with
    | error crash =>
      obtain ⟨handled, lost, portions⟩ := portions_of_crash read air
      exact ⟨handled, lost, _, portions⟩
    | ok _ =>
      obtain ⟨handled, lost, portions⟩ := portions_of_ok read air
      exact ⟨handled, lost, _, portions⟩

/-- A pass ends early only where a read fails. -/
theorem fails_of_verdict {dongle : Dongle δ κ φ} {e : LinkError}
    (ended : dongle.verdict = .error (.error e)) :
    ∃ kind port, dongle.port? kind = some port ∧ port.link.channel.Fails e := by
  cases read : dongle.takes .ble with
  | error e' =>
    rw [(taken_of_unread read).2.2] at ended
    cases ended
    exact ⟨.ble, ((dongle.lines_taking .ble).1 e read).1⟩
  | ok wireless =>
    unfold verdict at ended
    rw [read] at ended
    cases outcome : dongle.taken.outcomes dongle.plan with
    | error crash =>
      rw [outcome] at ended
      cases ended
    | ok _ =>
      rw [outcome] at ended
      cases also : dongle.takes .serial with
      | error e' =>
        rw [also] at ended
        cases ended
        exact ⟨.serial, ((dongle.lines_taking .serial).1 e also).1⟩
      | ok serial =>
        rw [also] at ended
        cases ended

/-- A pass crashes just where something on its plan does. -/
theorem verdict_eq_crash_iff {dongle : Dongle δ κ φ} {crash : Crash} :
    dongle.verdict = .error (.crash crash) ↔
      dongle.taken.outcomes dongle.plan = .error crash := by
  cases read : dongle.takes .ble with
  | error e =>
    obtain ⟨-, plan, verdict⟩ := taken_of_unread read
    rw [plan, verdict]
    exact iff_of_false nofun nofun
  | ok wireless =>
    unfold verdict
    rw [read]
    cases dongle.taken.outcomes dongle.plan with
    | error other => exact ⟨fun same => by cases same; rfl, fun same => by cases same; rfl⟩
    | ok _ =>
      refine iff_of_false ?_ nofun
      cases dongle.takes .serial <;> exact nofun

/-- A line that is served on a link crashes. -/
def Crashes (dongle : Dongle δ κ φ) (kind : LinkKind) (line : Line) (crash : Crash) : Prop :=
  ∃ port, dongle.port? kind = some port ∧
    port.session.Crashes line dongle.core port.link crash

/-- Nothing else does. -/
theorem outcome_eq_error_iff {dongle : Dongle δ κ φ} {event : DongleEvent δ κ φ} {crash : Crash} :
    dongle.outcome event = .error crash ↔
      ∃ kind line, event = .line kind line ∧ dongle.Crashes kind line crash := by
  cases event with
  | press button => exact iff_of_false nofun nofun
  | outside => exact iff_of_false nofun nofun
  | line kind line =>
    unfold Crashes
    cases there : dongle.port? kind with
    | none =>
      dsimp only [outcome]
      rw [there]
      refine iff_of_false nofun ?_
      rintro ⟨_, _, ⟨⟩, port, absent, -⟩
      exact nomatch there.symm.trans absent
    | some port =>
      rw [outcome_of_some there, (Port.serveLine_eq port dongle.core line).2.2.2,
        Fault.survival_eq_error_iff, Session.handled_eq_crash_iff]
      constructor
      · exact fun crashes => ⟨kind, line, rfl, port, there, crashes⟩
      · rintro ⟨_, _, ⟨⟩, other, same, crashes⟩
        cases there.symm.trans same
        exact crashes

/-- What a pass of the main loop handles, and how it ends. -/
structure OrderlyPass (dongle : Dongle δ κ φ) (cap : Nat) : Prop where
  /-- A pass takes what it takes and then handles what is on its agenda. -/
  handles : dongle.poll.2 = dongle.taken.run dongle.agenda
  /-- Lines of the wireless link come before presses, and those before lines of the serial link.
  There are no more of the first than the cap. -/
  ordered : ∃ wireless presses serial, dongle.agenda = inTurn wireless presses serial ∧
    wireless.length ≤ cap
  /-- A pass ends early only where a read fails. -/
  fails : ∀ e, dongle.poll.1 = .error (.error e) →
    ∃ kind port, dongle.port? kind = some port ∧ port.link.channel.Fails e
  /-- It crashes just where the last line that it handles does. -/
  crashes : ∀ crash, dongle.poll.1 = .error (.crash crash) ↔
    ∃ earlier kind line, dongle.agenda = earlier ++ [.line kind line] ∧
      (dongle.taken.run earlier).Crashes kind line crash
  /-- The presses that are handled and those that wait then are those that waited. -/
  presses : pressesOf dongle.agenda ++ dongle.poll.2.presses = dongle.presses
  /-- So it is with the lines of each link, and nothing is lost between them unless a line
  crashes. -/
  lines : ∃ lost : LinkKind → List Line,
    (∀ kind more, linesOf kind dongle.agenda ++ lost kind ++ dongle.poll.2.lines kind more =
      dongle.lines kind more) ∧
    ((∀ crash, dongle.poll.1 ≠ .error (.crash crash)) → ∀ kind, lost kind = [])
  /-- Where it ends well, everything that waits is handled, but for the cap. -/
  complete : ∀ restart?, dongle.poll.1 = .ok restart? → dongle.agenda =
    inTurn ((dongle.lines .ble []).take cap) dongle.presses (dongle.lines .serial [])

/-- Every pass is orderly. -/
theorem orderlyPass (dongle : Dongle δ κ φ) :
    dongle.OrderlyPass dongle.core.settings.wirelessCap := by
  obtain ⟨handled, lost, presses, portions⟩ := dongle.exists_portions
  have pass := dongle.poll_eq
  dsimp only at pass
  have handles : dongle.poll.2 = dongle.taken.run dongle.agenda := congrArg Prod.snd pass
  have left := leaves_run (fun _ => dongle.mem_agenda) dongle.taken
  rw [← handles] at left
  have fault {fault : Fault LinkError} :
      dongle.poll.1 = .error fault ↔ dongle.verdict = .error fault := by
    rw [pass]
    cases dongle.verdict with
    | error other => exact ⟨fun same => by cases same; rfl, fun same => by cases same; rfl⟩
    | ok _ => exact iff_of_false nofun nofun
  refine ⟨handles, ⟨_, _, _, portions.agenda, portions.short⟩,
    fun e ended => fails_of_verdict (fault.mp ended), fun crash => ?_, ?_,
    ⟨lost, fun kind more => ?_, fun survives => ?_⟩, fun restart ended => ?_⟩
  · rw [fault, verdict_eq_crash_iff, outcomes_eq_error_iff]
    constructor
    · rintro ⟨earlier, event, agenda, ended⟩
      obtain ⟨kind, line, rfl, crashes⟩ := outcome_eq_error_iff.mp ended
      exact ⟨earlier, kind, line, agenda, crashes⟩
    · rintro ⟨earlier, kind, line, agenda, crashes⟩
      exact ⟨earlier, _, agenda, outcome_eq_error_iff.mpr ⟨kind, line, rfl, crashes⟩⟩
  · rw [left.presses, portions.agenda, pressesOf_inTurn, portions.pressed]
  · rw [left.lines, portions.agenda, linesOf_inTurn, ← portions.lines kind more]
    cases kind <;> rfl
  · exact portions.spared fun crash ended => survives crash (fault.mpr ended)
  · have well : dongle.verdict = .ok () := by
      cases verdict : dongle.verdict with
      | error other => exact absurd (fault.mpr verdict) (ended ▸ nofun)
      | ok _ => rfl
    obtain ⟨wireless, pressed, serial⟩ := portions.complete well
    rw [portions.agenda, wireless, pressed, serial]

end Passes

/-! ## Any number of turns -/

/-- The device with something done to the channel of a link, if it has that link. -/
def onChannel (dongle : Dongle δ κ φ) (kind : LinkKind) (change : Channel → Channel) :
    Dongle δ κ φ :=
  let changed : Port → Port := fun port =>
    { port with link := { port.link with channel := change port.link.channel } }
  match kind with
  | .serial => { dongle with serial := dongle.serial.map changed }
  | .ble => { dongle with wireless := dongle.wireless.map changed }

/-- Where a channel is changed, the lines of its link are those of another continuation, and those
of the other link stay. -/
theorem lines_onChannel {change : Channel → Channel} {more instead : List UInt8}
    (own : ∀ link : LineLink,
      LineLink.lines { link with channel := change link.channel } more = link.lines instead)
    (dongle : Dongle δ κ φ) (kind other : LinkKind) :
    (dongle.onChannel kind change).lines other more =
      dongle.lines other (if kind = other then instead else more) := by
  unfold lines
  cases kind with
  | serial => cases other with
    | serial => cases there : dongle.serial with
      | none => simp [port?, onChannel, there]
      | some port => simpa [port?, onChannel, there] using own port.link
    | ble => rfl
  | ble => cases other with
    | serial => rfl
    | ble => cases there : dongle.wireless with
      | none => simp [port?, onChannel, there]
      | some port => simpa [port?, onChannel, there] using own port.link

/-- What was handled and then what waits is what waited before and then what came in. -/
structure Delivers (before after : Dongle δ κ φ) (turns : List (Turn δ κ φ))
    (handled : List (DongleEvent δ κ φ)) (survived : Prop) : Prop where
  /-- So it is with presses. -/
  presses : pressesOf handled ++ after.presses = before.presses ++ Turn.pushed turns
  /-- So it is with the lines of each link, and those that more bytes would make, if no line
  crashed. -/
  lines : survived → ∀ kind more, linesOf kind handled ++ after.lines kind more =
    before.lines kind (Turn.arrived kind turns ++ more)
  /-- The settings stay. -/
  settings : after.core.settings = before.core.settings

/-- What is delivered in two parts is delivered. -/
theorem Delivers.trans {first second third : Dongle δ κ φ} {turns turns' : List (Turn δ κ φ)}
    {handled handled' : List (DongleEvent δ κ φ)} {survived survived' : Prop}
    (earlier : Delivers first second turns handled survived)
    (later : Delivers second third turns' handled' survived') :
    Delivers first third (turns ++ turns') (handled ++ handled') (survived ∧ survived') where
  presses := by
    have pushed : Turn.pushed (turns ++ turns') = Turn.pushed turns ++ Turn.pushed turns' :=
      List.flatMap_append
    rw [pressesOf_append, List.append_assoc, later.presses, ← List.append_assoc, earlier.presses,
      pushed, List.append_assoc]
  lines both kind more := by
    have arrived : Turn.arrived kind (turns ++ turns') =
        Turn.arrived kind turns ++ Turn.arrived kind turns' := List.flatMap_append
    rw [linesOf_append, List.append_assoc, later.lines both.2, earlier.lines both.1, arrived,
      List.append_assoc]
  settings := later.settings.trans earlier.settings

variable [Device δ] [KeyValueStore κ] [FileStore φ]

/-- Take a turn. -/
def turn (dongle : Dongle δ κ φ) : Turn δ κ φ → Dongle δ κ φ
  | .arrives kind bytes => dongle.onChannel kind (Channel.arriving · bytes)
  | .pushes press => { dongle with presses := dongle.presses ++ [press] }
  | .passes => dongle.poll.2
  | .changes device store files now =>
    { dongle with core :=
      { dongle.core with device := device, store := store, files := files, now := now } }
  | .faults kind reads connected lapses =>
    dongle.onChannel kind fun channel =>
      { channel with reads := reads, connected := connected, lapses := lapses }

/-- What is handled in a turn. -/
def handling (dongle : Dongle δ κ φ) : Turn δ κ φ → List (DongleEvent δ κ φ)
  | .passes => dongle.agenda
  | _ => []

/-- Take turns in order. -/
def course (dongle : Dongle δ κ φ) (turns : List (Turn δ κ φ)) : Dongle δ κ φ :=
  turns.foldl turn dongle

/-- What is handled while turns are taken in order. -/
def handled (dongle : Dongle δ κ φ) : List (Turn δ κ φ) → List (DongleEvent δ κ φ)
  | [] => []
  | turn :: turns => dongle.handling turn ++ handled (dongle.turn turn) turns

/-- A turn is not a pass that crashes. -/
def Spares (dongle : Dongle δ κ φ) (turn : Turn δ κ φ) : Prop :=
  turn = .passes → ∀ crash, dongle.poll.1 ≠ .error (.crash crash)

/-- None of the passes that are made while turns are taken in order crashes. -/
def Survives (dongle : Dongle δ κ φ) (turns : List (Turn δ κ φ)) : Prop :=
  ∀ before turn after, turns = before ++ turn :: after → (dongle.course before).Spares turn

/-- Where there are no turns, no pass crashes. -/
theorem survives_nil (dongle : Dongle δ κ φ) : dongle.Survives [] :=
  fun before _ _ split => absurd split.symm (List.append_ne_nil_of_right_ne_nil before nofun)

/-- Where there is a turn, it does not crash, and no later pass does. -/
theorem survives_cons {dongle : Dongle δ κ φ} {turn : Turn δ κ φ} {turns : List (Turn δ κ φ)} :
    dongle.Survives (turn :: turns) ↔ dongle.Spares turn ∧ (dongle.turn turn).Survives turns := by
  constructor
  · intro survives
    refine ⟨survives [] turn turns rfl, fun before next after split => ?_⟩
    exact survives (turn :: before) next after (congrArg (turn :: ·) split)
  · rintro ⟨first, later⟩ before next after split
    cases before with
    | nil =>
      cases split
      exact first
    | cons _ before =>
      cases split
      exact later before next after rfl

/-- A pass delivers its agenda. -/
theorem delivers_poll (dongle : Dongle δ κ φ) :
    dongle.Delivers dongle.poll.2 [.passes] dongle.agenda (dongle.Spares .passes) := by
  have pass := dongle.orderlyPass
  refine ⟨pass.presses.trans (List.append_nil _).symm, fun survived kind more => ?_, ?_⟩
  · obtain ⟨lost, whole, none⟩ := pass.lines
    have all := whole kind more
    rwa [none (survived rfl) kind, List.append_nil] at all
  · have left := leaves_run (fun _ => dongle.mem_agenda) dongle.taken
    rw [pass.handles]
    exact left.settings.trans (settings_taken dongle)

/-- Every turn delivers what is handled in it. -/
theorem delivers_turn (dongle : Dongle δ κ φ) (turn : Turn δ κ φ) :
    dongle.Delivers (dongle.turn turn) [turn] (dongle.handling turn) (dongle.Spares turn) := by
  cases turn with
  | arrives kind bytes =>
    refine ⟨?_, fun _ other more => ?_, by cases kind <;> rfl⟩
    · cases kind <;> exact (List.append_nil _).symm
    · have came : (dongle.onChannel kind (Channel.arriving · bytes)).lines other more =
          dongle.lines other (if kind = other then bytes ++ more else more) :=
        lines_onChannel (fun link => link.lines_arriving bytes more) dongle kind other
      refine came.trans (congrArg (dongle.lines other) ?_)
      rw [Turn.arrived_arrives]
      split
      · rfl
      · rfl
  | pushes press => exact ⟨rfl, fun _ _ _ => rfl, rfl⟩
  | passes => exact dongle.delivers_poll
  | changes device store files now => exact ⟨(List.append_nil _).symm, fun _ _ _ => rfl, rfl⟩
  | faults kind reads connected lapses =>
    refine ⟨?_, fun _ other more => ?_, by cases kind <;> rfl⟩
    · cases kind <;> exact (List.append_nil _).symm
    · have same : (dongle.turn (.faults kind reads connected lapses)).lines other more =
          dongle.lines other (if kind = other then more else more) :=
        lines_onChannel (fun link => rfl) dongle kind other
      rw [ite_self] at same
      exact same

/-- Turns deliver what is handled in them. -/
theorem delivers_course (dongle : Dongle δ κ φ) (turns : List (Turn δ κ φ)) :
    dongle.Delivers (dongle.course turns) turns (dongle.handled turns)
      (dongle.Survives turns) := by
  induction turns generalizing dongle with
  | nil => exact ⟨(List.append_nil _).symm, fun _ _ _ => rfl, rfl⟩
  | cons turn turns ih =>
    have whole := (dongle.delivers_turn turn).trans (ih (dongle.turn turn))
    exact ⟨whole.presses, fun survives => whole.lines (survives_cons.mp survives), whole.settings⟩

/-- However bytes come in, presses are pushed, passes are made, and links, hosts, stores and files
fail: the presses handled so far and then those that wait are all that were pushed, in order; and
unless a pass crashes, on each link the lines handled so far and then those that wait are all that
its bytes make, in order. Every pass lets happen at most as many lines of the wireless link as the
cap, before all presses, and those before all lines of the serial link; it ends early only where a
read fails. It crashes just where a line that it handles does, which then is the last one, and only
then lines may be lost. -/
theorem delivered (first : Dongle δ κ φ) (turns : List (Turn δ κ φ)) :
    (pressesOf (first.handled turns) ++ (first.course turns).presses =
        first.presses ++ Turn.pushed turns) ∧
      (first.Survives turns → ∀ kind,
        linesOf kind (first.handled turns) ++ (first.course turns).lines kind [] =
          first.lines kind (Turn.arrived kind turns)) ∧
      ∀ before after, turns = before ++ .passes :: after →
        (first.course before).OrderlyPass first.core.settings.wirelessCap := by
  have whole := first.delivers_course turns
  refine ⟨whole.presses, fun survives kind => ?_, fun before after _ => ?_⟩
  · rw [whole.lines survives, List.append_nil]
  · rw [← (first.delivers_course before).settings]
    exact (first.course before).orderlyPass

/-- A device with a wireless link and files. -/
def withFiles (files : MemoryFiles) : Dongle Recording MemoryStore MemoryFiles :=
  withWireless { core := Core.ofSettings {} {} {} {} (some files) } { kind := .ble }

/-- Two lines that come in together are handled, or wait. -/
theorem delivered_two :
    let turns : List (Turn Recording MemoryStore MemoryFiles) :=
      [.arrives .ble (Text.utf8 "TYPE:a\nHELP\n"), .passes]
    (withFiles {}).Survives turns ∧
      linesOf .ble ((withFiles {}).handled turns) ++ ((withFiles {}).course turns).lines .ble [] =
        [{ text := "TYPE:a" }, { text := "HELP" }] := by
  intro turns
  have survives : (withFiles {}).Survives turns := by
    refine survives_cons.mpr ⟨nofun, survives_cons.mpr ⟨fun _ crash crashed => ?_, survives_nil _⟩⟩
    have ended : ((withFiles {}).course (turns.take 1)).poll.1 = .ok none := by decide +kernel
    exact nomatch ended.symm.trans crashed
  have came : (withFiles {}).lines .ble (Turn.arrived .ble turns) =
      [{ text := "TYPE:a" }, { text := "HELP" }] := by decide +kernel
  exact ⟨survives, ((delivered (withFiles {}) turns).2.1 survives .ble).trans came⟩

/-- A device with one file, a counted block whose count is the least number. -/
def looping : Dongle Recording MemoryStore MemoryFiles :=
  withFiles (MemoryFiles.put {} "m.txt" (Text.utf8 "LOOP 2147483648\nENDLOOP"))

/-- A device with files whose names are in no order: by their numbers, 3 comes before 10, and by
their letters, 10 before 2a and 2a before 3. -/
def crowded : Dongle Recording MemoryStore MemoryFiles :=
  let numbered := (List.range 22).map fun n => Text.ofNat (n + 1) ++ FileName.ending
  withFiles (("2a.txt".toList :: numbered).foldl (fun files name => files.put name []) {})

/-- Of two lines that come in together, the first plays that file, or lists those names: its pass
crashes, and the second line is not handled and does not wait. -/
theorem not_delivered_crash :
    let played : List (Turn Recording MemoryStore MemoryFiles) :=
      [.arrives .ble (Text.utf8 "PLAY:m\nTYPE:a\n"), .passes]
    let listed : List (Turn Recording MemoryStore MemoryFiles) :=
      [.arrives .ble (Text.utf8 "LIST\nTYPE:a\n"), .passes]
    ((looping.course (played.take 1)).poll.1 = .error (.crash .overflow) ∧
      linesOf .ble (looping.handled played) = [{ text := "PLAY:m" }] ∧
      (looping.course played).lines .ble [] = []) ∧
    (crowded.course (listed.take 1)).poll.1 = .error (.crash .disorder) ∧
      linesOf .ble (crowded.handled listed) = [{ text := "LIST" }] ∧
      (crowded.course listed).lines .ble [] = [] := by
  decide +kernel

end Dongle

end Keyfob
