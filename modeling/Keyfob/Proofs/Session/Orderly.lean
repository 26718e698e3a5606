import Keyfob.Proofs.Macro.Rest
import Keyfob.Proofs.Session.Serving

/-!
# What a line leaves as it should be

Whatever a line asks for, the settings stay, the port changes by replies only, and a restful device
is at rest again, also where the line fails (`Session.serve_orderly`).
-/
namespace Keyfob

variable {δ κ φ ρ α : Type}

/-- What a part of the handling of a line leaves as it should be: the settings, what replies keep
of a port, and the device at rest unless the part fails. -/
structure Orderly (rest : δ → Prop) (kept : ρ → Prop) (before : Exchange δ κ φ ρ)
    (outcome : Except (Fault SessionError) α × Exchange δ κ φ ρ) : Prop where
  /-- The settings stay. -/
  settings : outcome.2.core.settings = before.core.settings
  /-- The device stays at rest. -/
  rests : rest before.core.device → Fault.answer outcome.1 = .ok () → rest outcome.2.core.device
  /-- What replies keep of a port is kept. -/
  keeps : kept before.port → kept outcome.2.port

/-- What is done with the device goes well where the handling of it does not fail. -/
theorem Handling.ok_of_share {ε : Type} {fault : ε → SessionError}
    {f : Core δ κ φ → Except ε Unit × Core δ κ φ} {exchange : Exchange δ κ φ ρ}
    (done : Fault.answer (share (.error ∘ fault) f exchange).1 = .ok ()) :
    (f exchange.core).1 = .ok () := by
  simp only [share, Fault.answer_mapError_error] at done
  cases outcome : (f exchange.core).1 with
  | ok _ => rfl
  | error e =>
    rw [outcome] at done
    cases done

variable [Device δ] [KeyValueStore κ] [FileStore φ] [ReplyPort ρ] {rest : δ → Prop}
  {kept : ρ → Prop} (restful : Device.Restful rest)
  (replies : ∀ (t : Text) (port : ρ), kept port → kept (ReplyPort.reply t port).2)

include restful replies

/-- Discreet handling is orderly. -/
theorem Handling.Discreet.orderly {allowed : SessionState → Prop} {handling : Handling δ κ φ ρ α}
    (discreet : Discreet allowed handling) (exchange : Exchange δ κ φ ρ) :
    Orderly rest kept exchange (handling exchange) := by
  induction discreet generalizing exchange with
  | pure result => exact ⟨rfl, fun resting _ => resting, id⟩
  | throw fault => exact ⟨rfl, fun resting _ => resting, id⟩
  | @bind _ _ first next _ _ earlier later =>
    obtain ⟨settings, rests, keeps⟩ := earlier exchange
    rw [bind_eq]
    cases outcome : first exchange with
    | mk result after =>
      rw [outcome] at settings rests keeps
      cases result with
      | error fault =>
        cases fault with
        | error e => exact ⟨settings, fun _ failed => (nomatch failed), keeps⟩
        | crash crash => exact ⟨settings, fun resting _ => rests resting rfl, keeps⟩
      | ok value =>
        obtain ⟨settings', rests', keeps'⟩ := later value after
        exact ⟨settings'.trans settings, fun resting => rests' (rests resting rfl),
          fun before => keeps' (keeps before)⟩
  | reply t => exact ⟨rfl, fun resting _ => resting, replies t exchange.port⟩
  | become fine => exact ⟨rfl, fun resting _ => resting, id⟩
  | look hidden => exact ⟨rfl, fun resting _ => resting, id⟩
  | write files hidden => exact ⟨rfl, fun resting _ => resting, id⟩
  | stop => exact ⟨rfl, fun resting _ => resting, id⟩
  | relay t =>
    refine ⟨rfl, fun resting done => ?_, id⟩
    exact exchange.core.macros.run_rests restful resting t (ok_of_share done)
  | direct directive =>
    refine ⟨rfl, fun resting done => ?_, id⟩
    exact exchange.core.macros.runDirective_rests restful resting directive (ok_of_share done)
  | tap chord =>
    refine ⟨rfl, fun resting done => ?_, id⟩
    exact restful.stays (.of_tap chord) resting (ok_of_share done)
  | play file files =>
    refine ⟨rfl, fun resting done => ?_, id⟩
    simp only [Handling.play, share, Fault.answer_mapError_map, Fault.answer_map] at done
    refine exchange.core.player.playFile_rests restful resting files file _ ?_
    cases ended : Fault.answer (exchange.core.player.playFile files file exchange.core.macros
        exchange.core.device).1 with
    | ok _ => rfl
    | error e =>
      rw [ended] at done
      cases done

variable (session : Session) (line : Line) (core : Core δ κ φ) (port : ρ)

/-- Handling a line is orderly. -/
theorem Session.handled_orderly :
    (session.handled line core port).2.core.settings = core.settings ∧
      (rest core.device → Fault.answer (session.handled line core port).1 = .ok () →
        rest (session.handled line core port).2.core.device) ∧
      (kept port → kept (session.handled line core port).2.port) := by
  cases form session line core port with
  | discreet before handling _ discreet handles =>
    rw [show session.handled line core port = handling ⟨before, core, port⟩ from
      handles core.credentials core.store]
    obtain ⟨settings, rests, keeps⟩ := discreet.orderly restful replies ⟨before, core, port⟩
    exact ⟨settings, rests, keeps⟩
  | lists waiting significant right handles =>
    rw [handles]
    obtain ⟨settings, rests, keeps⟩ :=
      (Handling.Discreet.sendListing core.credentials).orderly restful replies ⟨.idle, core, port⟩
    exact ⟨settings, rests, keeps⟩
  | updates waiting handles =>
    rw [show session.handled line core port = _ from handles core.credentials core.store,
      Handling.answer_credentials]
    dsimp only [Handling.reply, Exchange.answered, Core.keeping]
    exact ⟨rfl, fun resting _ => resting, replies _ port⟩
  | chooses waiting handles =>
    rw [show session.handled line core port = _ from handles core.credentials core.store,
      Handling.answer_newCode]
    cases Pin.strict? line.text.trim with
    | none => exact ⟨rfl, fun resting _ => resting, replies _ port⟩
    | some pin => exact ⟨rfl, fun resting _ => resting, replies _ port⟩

/-- A line that is served leaves the settings as they are, what replies keep of a port, and a
restful device at rest. -/
theorem Session.serve_orderly :
    (session.serve line core port).2.1.settings = core.settings ∧
      (rest core.device → rest (session.serve line core port).2.1.device) ∧
      (kept port → kept (session.serve line core port).2.2) := by
  obtain ⟨settings, rests, keeps⟩ := session.handled_orderly restful replies line core port
  unfold serve settle
  cases outcome : (session.handled line core port).1 with
  | ok _ =>
    rw [outcome] at rests
    exact ⟨settings, fun resting => rests resting rfl, keeps⟩
  | error fault =>
    cases fault with
    | crash crash =>
      rw [outcome] at rests
      exact ⟨settings, fun resting => rests resting rfl, keeps⟩
    | error e =>
      refine ⟨settings, fun _ => restful.returns _, fun before => ?_⟩
      dsimp only
      split
      · exact replies _ _ (keeps before)
      · exact keeps before

end Keyfob
