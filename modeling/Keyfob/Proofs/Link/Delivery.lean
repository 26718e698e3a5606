import Keyfob.Link.LineLink

/-!
# What a link delivers

The lines of a link (`LineLink.lines`) are those that wait in its queue and those that the framer
makes of the bytes that wait. Reading and framing moves lines from the bytes into the queue, also
where a read fails in its middle, and what is taken is taken off the front: nothing is lost and
nothing comes twice (`LineLink.lines_drain`). Sending has nothing to do with it.
-/
namespace Keyfob

namespace Channel

/-- A read fails, now or after reads that succeed and take something. -/
inductive Fails (e : LinkError) : Channel → Prop where
  /-- The next read fails. -/
  | now {channel after : Channel} (failed : channel.read = (.error e, after)) : Fails e channel
  /-- The next read takes something, and a read after it fails. -/
  | later {channel after : Channel} {b : UInt8} {bytes : List UInt8}
    (taken : channel.read = (.ok (b :: bytes), after)) (fails : Fails e after) : Fails e channel

/-- A read that fails takes nothing. -/
theorem incoming_of_read_error {channel after : Channel} {e : LinkError}
    (failed : channel.read = (.error e, after)) : after = channel := by
  unfold read at failed
  split at failed
  · exact (Prod.mk.inj failed).2.symm
  · cases (Prod.mk.inj failed).1

/-- A read takes its bytes off the front of what waits. -/
theorem incoming_of_read_ok {channel after : Channel} {bytes : List UInt8}
    (outcome : channel.read = (.ok bytes, after)) : channel.incoming = bytes ++ after.incoming := by
  unfold read at outcome
  split at outcome
  · cases (Prod.mk.inj outcome).1
  · obtain ⟨taken, rfl⟩ := Prod.mk.inj outcome
    cases taken
    exact (List.take_append_drop readSize channel.incoming).symm

/-- A read that takes nothing has left nothing. -/
theorem incoming_of_read_nil {channel after : Channel}
    (outcome : channel.read = (.ok [], after)) : after.incoming = [] := by
  have whole := incoming_of_read_ok outcome
  unfold read at outcome
  split at outcome
  · cases (Prod.mk.inj outcome).1
  · obtain ⟨taken, rfl⟩ := Prod.mk.inj outcome
    have none : channel.incoming.take readSize = [] := Except.ok.inj taken
    cases List.take_eq_nil_iff.mp none with
    | inl never => exact absurd never (by decide)
    | inr empty => exact whole.symm.trans empty

/-- Writing has nothing to do with what waits to be read. -/
theorem incoming_write (channel : Channel) (bytes : List UInt8) :
    (channel.write bytes).2.incoming = channel.incoming := by
  unfold write
  split
  · rfl
  split
  · rfl
  · rfl

end Channel

namespace LineLink

/-- The lines of a link that have not been taken, if more bytes come in. -/
def lines (link : LineLink) (more : List UInt8) : List Line :=
  link.queue ++ (link.framer.feedAll (link.channel.incoming ++ more)).2

/-- Bytes that come in are more bytes. -/
theorem lines_arriving (link : LineLink) (bytes more : List UInt8) :
    lines { link with channel := link.channel.arriving bytes } more =
      link.lines (bytes ++ more) := by
  unfold lines Channel.arriving
  rw [List.append_assoc]

/-- The lines stay while bytes are read and framed. -/
theorem lines_framing {link : LineLink} {after : Channel} {bytes : List UInt8}
    (read : link.channel.incoming = bytes ++ after.incoming) (more : List UInt8) :
    lines (framing { link with channel := after } bytes) more = link.lines more := by
  have cut := Framer.feedAll_append link.framer bytes (after.incoming ++ more)
  unfold lines
  rw [read, List.append_assoc, cut]
  exact List.append_assoc _ _ _

/-- The lines stay while everything that waits is read, also where a read fails. -/
theorem lines_poll (link : LineLink) (more : List UInt8) :
    link.poll.2.lines more = link.lines more := by
  fun_induction poll link with
  | case1 link e after failed =>
    rw [Channel.incoming_of_read_error failed]
  | case2 link after outcome =>
    have none := Channel.incoming_of_read_ok outcome
    unfold lines
    rw [none]
    rfl
  | case3 link b bytes after outcome _ ih =>
    rw [ih, lines_framing (Channel.incoming_of_read_ok outcome)]

/-- Where no read fails, nothing is left to be read. -/
theorem incoming_of_poll_ok {link after : LineLink} (outcome : link.poll = (.ok (), after)) :
    after.channel.incoming = [] := by
  fun_induction poll link with
  | case1 link e channel failed => cases outcome
  | case2 link channel read =>
    cases outcome
    exact Channel.incoming_of_read_nil read
  | case3 link b bytes channel read _ ih => exact ih outcome

/-- Where everything was read, the lines are those in the queue. -/
theorem queue_of_poll_ok {link after : LineLink} (outcome : link.poll = (.ok (), after)) :
    after.queue = link.lines [] := by
  have kept : after.lines [] = link.lines [] := by
    rw [← lines_poll link, outcome]
  rw [← kept]
  unfold lines
  rw [incoming_of_poll_ok outcome]
  exact (List.append_nil _).symm

/-- Not everything could be read because a read failed. -/
theorem fails_of_poll_error {link after : LineLink} {e : LinkError}
    (outcome : link.poll = (.error e, after)) : link.channel.Fails e := by
  fun_induction poll link with
  | case1 link e' channel failed =>
    cases outcome
    exact .now failed
  | case2 link channel read => cases outcome
  | case3 link b bytes channel read _ ih => exact .later read (ih outcome)

/-- What is taken is the front of the lines, as far as the cap allows, and the rest stays; where a
read fails, all of them stay. -/
theorem lines_drain (link : LineLink) (cap : Option Nat) :
    (∀ e, (link.drain cap).1 = .error e →
      link.channel.Fails e ∧ ∀ more, (link.drain cap).2.lines more = link.lines more) ∧
    ∀ taken, (link.drain cap).1 = .ok taken →
      taken = (link.lines []).take (cap.getD (link.lines []).length) ∧
        ∀ more, taken ++ (link.drain cap).2.lines more = link.lines more := by
  have kept := link.lines_poll
  unfold drain
  cases outcome : link.poll with
  | mk result after =>
    rw [outcome] at kept
    cases result with
    | error e =>
      refine ⟨fun e' ended => ?_, nofun⟩
      cases ended
      exact ⟨fails_of_poll_error outcome, kept⟩
    | ok _ =>
      refine ⟨nofun, fun taken ended => ?_⟩
      cases ended
      refine ⟨by rw [queue_of_poll_ok outcome], fun more => ?_⟩
      rw [← kept more]
      unfold lines
      rw [← List.append_assoc, List.take_append_drop]

/-- Writing parts has nothing to do with the lines. -/
theorem lines_sendParts (parts : List (List UInt8)) (link : LineLink) (more : List UInt8) :
    (sendParts parts link).2.lines more = link.lines more := by
  induction parts generalizing link with
  | nil => rfl
  | cons part parts ih =>
    have waiting := link.channel.incoming_write part
    unfold sendParts
    cases outcome : link.channel.write part with
    | mk result channel =>
      rw [outcome] at waiting
      have same : lines { link with channel := channel } more = link.lines more := by
        unfold lines
        rw [waiting]
      cases result with
      | ok _ => exact (ih _).trans same
      | error e => exact same

/-- Sending a line has nothing to do with the lines that come in. -/
theorem lines_sendLine (link : LineLink) (t : Text) (more : List UInt8) :
    (link.sendLine t).2.lines more = link.lines more := lines_sendParts _ link more

end LineLink

end Keyfob
