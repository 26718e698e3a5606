import Keyfob.Proofs.Link.Delivery
import Keyfob.Proofs.Link.Framing

/-!
# What the calls of a link return

A link is polled, asked for a line or drained, in any order, while bytes come in and reads fail
(`LinkCall`). Whatever is called, the lines returned so far and then those in the queue are the
framing of the bytes that were read, and the framer holds the piece at their end
(`LineLink.framed_calls`). What the framing of bytes is is said without the framer
(`Framer.Framed`): a cutting of the bytes at line feeds, and where a piece has grown to the
greatest length.
-/
namespace Keyfob

namespace Line

/-- The line that some bytes make: a carriage return at their end is taken off and noted. -/
def ofBytes (bytes : List UInt8) : Line :=
  if bytes.getLast? = some returnByte then { text := Text.decode bytes.dropLast, crlf := true }
  else { text := Text.decode bytes }

/-- It is the line that the framer makes of them. -/
theorem ofLatest_reverse (bytes : List UInt8) : ofLatest bytes.reverse = ofBytes bytes := by
  obtain rfl | ⟨front, b, made⟩ := List.eq_nil_or_concat bytes
  · rfl
  · rw [List.concat_eq_append] at made
    subst made
    rw [List.reverse_concat, ofLatest, ofBytes, List.getLast?_concat, List.dropLast_concat,
      List.reverse_cons, List.reverse_reverse]
    simp only [Option.some.injEq]

end Line

namespace Framer

/-- Bytes are cut into lines, and a piece at their end whose end has not come. -/
inductive Framed : List UInt8 → List Line → List UInt8 → Prop where
  /-- A piece in which no line ends, and which is no longer than a line may be, is left over. -/
  | pending {piece : List UInt8} (inside : Line.feedByte ∉ piece) (fits : piece.length ≤ longest) :
    Framed piece [] piece
  /-- Such a piece and a line feed are a line. -/
  | ended {piece rest tail : List UInt8} {lines : List Line} (inside : Line.feedByte ∉ piece)
    (fits : piece.length ≤ longest) (later : Framed rest lines tail) :
    Framed (piece ++ Line.feedByte :: rest) (Line.ofBytes piece :: lines) tail
  /-- Such a piece of the greatest length is a line if anything but a line feed follows it. -/
  | split {piece rest tail : List UInt8} {b : UInt8} {lines : List Line}
    (inside : Line.feedByte ∉ piece) (full : piece.length = longest) (other : b ≠ Line.feedByte)
    (later : Framed (b :: rest) lines tail) :
    Framed (piece ++ b :: rest) (Line.ofBytes piece :: lines) tail

/-- Bytes are taken one by one. -/
theorem feedAll_cons (framer : Framer) (b : UInt8) (bytes : List UInt8) :
    framer.feedAll (b :: bytes) =
      (((framer.feed b).1.feedAll bytes).1,
        (framer.feed b).2 ++ ((framer.feed b).1.feedAll bytes).2) := rfl

/-- A piece that fits is kept whole. -/
theorem feedAll_piece {piece : List UInt8} (inside : Line.feedByte ∉ piece)
    (fits : piece.length ≤ longest) : empty.feedAll piece = ({ latest := piece.reverse }, []) := by
  have kept := feedAll_of_room inside empty (by
    rw [show empty.latest = [] from rfl]
    simpa using fits)
  rwa [show empty.latest = [] from rfl, List.append_nil] at kept

/-- The framer cuts bytes as they are to be cut. -/
theorem feedAll_of_framed {bytes tail : List UInt8} {lines : List Line}
    (framed : Framed bytes lines tail) :
    empty.feedAll bytes = ({ latest := tail.reverse }, lines) := by
  induction framed with
  | pending inside fits => exact feedAll_piece inside fits
  | @ended piece rest tail lines inside fits later ih =>
    rw [feedAll_append, feedAll_piece inside fits, feedAll_cons, feed_feedByte, ih,
      Line.ofLatest_reverse]
    rfl
  | @split piece rest tail b lines inside full other later ih =>
    have space : empty.latest.length < longest := by decide
    have filled : longest ≤ ({ latest := piece.reverse } : Framer).latest.length := by
      rw [List.length_reverse]
      exact Nat.le_of_eq full.symm
    -- The byte that does not fit any more begins the next line, as it would after nothing.
    rw [feedAll_cons, feed_of_room other space] at ih
    obtain ⟨kept, made⟩ := Prod.mk.inj ih
    rw [feedAll_append, feedAll_piece inside (Nat.le_of_eq full), feedAll_cons,
      feed_of_full other filled, Line.ofLatest_reverse]
    exact Prod.ext kept (congrArg (Line.ofBytes piece :: ·) made)

/-- What the framer makes of bytes after a piece is a cutting of the piece and the bytes. -/
theorem framed_feedAll {piece : List UInt8} (inside : Line.feedByte ∉ piece)
    (fits : piece.length ≤ longest) (bytes : List UInt8) :
    let fed := feedAll { latest := piece.reverse } bytes
    Framed (piece ++ bytes) fed.2 fed.1.latest.reverse := by
  induction bytes generalizing piece with
  | nil =>
    simp only [List.append_nil, feedAll, List.reverse_reverse]
    exact .pending inside fits
  | cons b bytes ih =>
    by_cases ends : b = Line.feedByte
    · subst ends
      rw [feedAll_cons, feed_feedByte, Line.ofLatest_reverse]
      exact .ended inside fits (@ih [] List.not_mem_nil (Nat.zero_le _))
    by_cases full : longest ≤ piece.length
    · rw [feedAll_cons, feed_of_full ends (by rwa [List.length_reverse]), Line.ofLatest_reverse]
      refine .split inside (Nat.le_antisymm fits full) ends ?_
      exact @ih [b] (fun listed => ends (List.mem_singleton.mp listed).symm)
        (Nat.succ_pos _)
    · rw [feedAll_cons, feed_of_room ends (by rw [List.length_reverse]; omega)]
      have longer := @ih (piece ++ [b])
        (fun listed => (List.mem_append.mp listed).elim inside
          fun last => ends (List.mem_singleton.mp last).symm)
        (by rw [List.length_append, List.length_singleton]; omega)
      rw [List.append_assoc, List.reverse_concat] at longer
      exact longer

/-- There is one framing of bytes: the lines that the framer makes of them, and what it holds. -/
theorem framed_iff (bytes : List UInt8) (lines : List Line) (tail : List UInt8) :
    Framed bytes lines tail ↔
      lines = (empty.feedAll bytes).2 ∧ tail = (empty.feedAll bytes).1.latest.reverse := by
  constructor
  · intro framed
    rw [feedAll_of_framed framed, List.reverse_reverse]
    exact ⟨rfl, rfl⟩
  · rintro ⟨rfl, rfl⟩
    exact @framed_feedAll [] List.not_mem_nil (Nat.zero_le _) bytes

end Framer

/-- Something that happens to a link. -/
inductive LinkCall where
  /-- Bytes come in. -/
  | arrives (bytes : List UInt8)
  /-- Reads fail and succeed as told from now on. -/
  | faults (reads : Allowance)
  /-- Everything that waits is read and framed. -/
  | polls
  /-- The next line is asked for. -/
  | asks
  /-- Lines are drained, all of them or no more than a cap. -/
  | drains (cap : Option Nat)

/-- The bytes that come in during some calls. -/
def LinkCall.arrived (calls : List LinkCall) : List UInt8 :=
  calls.flatMap fun
    | .arrives bytes => bytes
    | _ => []

/-- What comes in during two lists of calls comes in during both in turn. -/
theorem LinkCall.arrived_append (first second : List LinkCall) :
    arrived (first ++ second) = arrived first ++ arrived second := List.flatMap_append

namespace LineLink

/-- Let something happen to a link: the lines that are returned, none where the call fails. -/
def call (link : LineLink) : LinkCall → List Line × LineLink
  | .arrives bytes => ([], { link with channel := link.channel.arriving bytes })
  | .faults reads => ([], { link with channel := { link.channel with reads := reads } })
  | .polls => ([], link.poll.2)
  | .asks =>
    match link.nextLine with
    | (.ok line, link) => (line.toList, link)
    | (.error _, link) => ([], link)
  | .drains cap =>
    match link.drain cap with
    | (.ok lines, link) => (lines, link)
    | (.error _, link) => ([], link)

/-- Let things happen to a link in order: the lines that are returned. -/
def callAll : LineLink → List LinkCall → List Line × LineLink
  | link, [] => ([], link)
  | link, first :: later =>
    let (returned, link) := link.call first
    let (more, link) := link.callAll later
    (returned ++ more, link)

/-! ## What is returned and what is held -/

/-- Of the bytes that came in, some were read and the others wait; those that were read make the
lines that were returned, those in the queue, and what the framer holds. -/
def Accounts (came : List UInt8) (returned : List Line) (link : LineLink) : Prop :=
  ∃ read, came = read ++ link.channel.incoming ∧
    Framer.empty.feedAll read = (link.framer, returned ++ link.queue)

/-- Reading moves bytes into the framer and the queue, also where a read fails. -/
theorem accounts_poll {came : List UInt8} {returned : List Line} (link : LineLink)
    (accounts : link.Accounts came returned) : link.poll.2.Accounts came returned := by
  fun_induction poll link with
  | case1 link e after failed =>
    rw [Channel.incoming_of_read_error failed]
    exact accounts
  | case2 link after outcome =>
    obtain ⟨read, rfl, framed⟩ := accounts
    exact ⟨read, congrArg (read ++ ·) (Channel.incoming_of_read_ok outcome), framed⟩
  | case3 link b bytes after outcome _ ih =>
    obtain ⟨read, rfl, framed⟩ := accounts
    refine ih ⟨read ++ b :: bytes, ?_, ?_⟩
    · rw [Channel.incoming_of_read_ok outcome, List.append_assoc]
      rfl
    · rw [Framer.feedAll_append, framed, List.append_assoc]
      rfl

/-- Lines that are taken off the front of the queue are returned. -/
theorem Accounts.returning {came : List UInt8} {returned taken left : List Line} {link : LineLink}
    (accounts : link.Accounts came returned) (queue : link.queue = taken ++ left) :
    Accounts came (returned ++ taken) { link with queue := left } := by
  obtain ⟨read, whole, framed⟩ := accounts
  refine ⟨read, whole, ?_⟩
  rw [framed, queue, List.append_assoc]

/-- The first of some lines, if there is one, is what is taken off their front. -/
theorem head?_append_tail (lines : List Line) : lines = lines.head?.toList ++ lines.tail := by
  cases lines with
  | nil => rfl
  | cons line lines => rfl

/-- Whatever happens to a link, its accounts stay right. -/
theorem accounts_call {came : List UInt8} {returned : List Line} {link : LineLink}
    (accounts : link.Accounts came returned) (event : LinkCall) :
    (link.call event).2.Accounts (came ++ LinkCall.arrived [event])
      (returned ++ (link.call event).1) := by
  cases event with
  | arrives bytes =>
    obtain ⟨read, rfl, framed⟩ := accounts
    refine ⟨read, ?_, by rw [call, List.append_nil]; exact framed⟩
    rw [LinkCall.arrived, List.flatMap_singleton, List.append_assoc]
    rfl
  | faults reads =>
    rw [LinkCall.arrived, List.flatMap_singleton, call, List.append_nil, List.append_nil]
    exact accounts
  | polls =>
    rw [LinkCall.arrived, List.flatMap_singleton, call, List.append_nil, List.append_nil]
    exact link.accounts_poll accounts
  | asks =>
    have polled := link.accounts_poll accounts
    rw [LinkCall.arrived, List.flatMap_singleton, List.append_nil, call, nextLine]
    by_cases waiting : link.queue.isEmpty = true
    · rw [if_pos waiting]
      cases outcome : link.poll with
      | mk result after =>
        rw [outcome] at polled
        cases result with
        | error e => simpa only [List.append_nil] using polled
        | ok _ => exact polled.returning (head?_append_tail after.queue)
    · rw [if_neg waiting]
      exact accounts.returning (head?_append_tail link.queue)
  | drains cap =>
    have polled := link.accounts_poll accounts
    rw [LinkCall.arrived, List.flatMap_singleton, List.append_nil, call, drain]
    cases outcome : link.poll with
    | mk result after =>
      rw [outcome] at polled
      cases result with
      | error e => simpa only [List.append_nil] using polled
      | ok _ => exact polled.returning (List.take_append_drop _ after.queue).symm

/-- The accounts stay right along every list of calls. -/
theorem accounts_callAll {came : List UInt8} {returned : List Line} {link : LineLink}
    (accounts : link.Accounts came returned) (events : List LinkCall) :
    (link.callAll events).2.Accounts (came ++ LinkCall.arrived events)
      (returned ++ (link.callAll events).1) := by
  induction events generalizing came returned link with
  | nil => simpa only [callAll, LinkCall.arrived, List.flatMap_nil, List.append_nil] using accounts
  | cons event events ih =>
    have later := ih (accounts_call accounts event)
    rw [List.append_assoc, List.append_assoc] at later
    rw [← List.singleton_append, LinkCall.arrived_append]
    exact later

/-! ## What the next call returns -/

/-- What a link returns when it is called: it fails only where a read fails, and else returns the
front of all the lines that its bytes make, also of those that wait to be read. -/
structure Answers (link : LineLink) : Prop where
  /-- A poll that does not fail has left nothing to be read. -/
  polls : link.poll.1 = .ok () →
    link.poll.2.channel.incoming = [] ∧ link.poll.2.queue = link.lines []
  /-- The line that is asked for is the first one. -/
  asks : ∀ line, link.nextLine.1 = .ok line → line = (link.lines []).head?
  /-- The lines that are drained are the first ones, as many as the cap allows. -/
  drains : ∀ cap lines, (link.drain cap).1 = .ok lines →
    lines = (link.lines []).take (cap.getD (link.lines []).length)
  /-- A call fails only where a read fails. -/
  fails : ∀ e, link.poll.1 = .error e ∨ link.nextLine.1 = .error e ∨
    (∃ cap, (link.drain cap).1 = .error e) → link.channel.Fails e

/-- Every link answers so. -/
theorem answers (link : LineLink) : link.Answers where
  polls done := by
    have outcome : link.poll = (.ok (), link.poll.2) := Prod.ext done rfl
    exact ⟨incoming_of_poll_ok outcome, queue_of_poll_ok outcome⟩
  asks line done := by
    unfold nextLine at done
    by_cases waiting : link.queue.isEmpty = true
    · rw [if_pos waiting] at done
      cases outcome : link.poll with
      | mk result after =>
        rw [outcome] at done
        cases result with
        | error e => cases done
        | ok _ =>
          cases done
          rw [queue_of_poll_ok outcome]
    · rw [if_neg waiting] at done
      cases done
      unfold lines
      cases queue : link.queue with
      | nil => exact absurd (congrArg List.isEmpty queue) waiting
      | cons line rest => rfl
  drains cap lines done := ((link.lines_drain cap).2 lines done).1
  fails e failed := by
    obtain polled | asked | ⟨cap, drained⟩ := failed
    · exact @fails_of_poll_error link link.poll.2 e (Prod.ext polled rfl)
    · unfold nextLine at asked
      split at asked
      · cases outcome : link.poll with
        | mk result after =>
          rw [outcome] at asked
          cases result with
          | error e' =>
            cases asked
            exact fails_of_poll_error outcome
          | ok _ => cases asked
      · cases asked
    · exact ((link.lines_drain cap).1 e drained).1

/-- However bytes come in, reads fail and a new link is polled, asked for lines and drained: the
bytes that came in are those that were read and then those that wait; the framing of those that
were read is the lines that were returned and then those in the queue, in order, and what the
framer holds is the piece at their end. So a line is never lost, doubled or moved, and what the
next call returns is the front of what was not returned; a drain returns no more lines than its
cap. -/
theorem framed_calls (channel : Channel) (chunkSize : Option ChunkSize) (events : List LinkCall) :
    let returned := (callAll { channel, chunkSize } events).1
    let link := (callAll { channel, chunkSize } events).2
    (∃ read, channel.incoming ++ LinkCall.arrived events = read ++ link.channel.incoming ∧
      ∀ lines tail, Framer.Framed read lines tail ↔
        lines = returned ++ link.queue ∧ tail = link.framer.latest.reverse) ∧
      link.Answers ∧
      ∀ cap lines, (link.drain (some cap)).1 = .ok lines → lines.length ≤ cap := by
  intro returned link
  have fresh : Accounts channel.incoming [] { channel, chunkSize } :=
    ⟨[], rfl, rfl⟩
  obtain ⟨read, whole, framed⟩ := accounts_callAll fresh events
  refine ⟨⟨read, whole, fun lines tail => ?_⟩, link.answers, fun cap lines done => ?_⟩
  · rw [Framer.framed_iff, framed]
    rfl
  · rw [link.answers.drains (some cap) lines done]
    exact List.length_take_le _ _

/-- Lines in pieces, of which one read takes the first and a read after it fails: the line is
returned once, and what follows it is kept. -/
example :
    let events : List LinkCall := [.arrives (List.replicate 256 65), .arrives [10, 66],
      .faults (some 1), .polls, .faults none, .drains (some 1), .asks]
    ((callAll { channel := { kind := .serial } } events).1.map Line.text,
      (callAll { channel := { kind := .serial } } events).2.framer.pending) =
      ([List.replicate 256 'A'], 1) := by decide +kernel

end LineLink

end Keyfob
