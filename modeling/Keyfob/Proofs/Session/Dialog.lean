import Keyfob.Proofs.Session.Handling
import Keyfob.Proofs.Store.Framed

/-!
# What an answer can do

A code that is asked for either refuses the line or lets it through (`authorize_eq`). Letting it
through leads to the next question or sends the credentials; the two questions that no code
follows change what is secret, each its own part of it. Every answer ends its question first.
-/
namespace Keyfob

variable {δ κ φ ρ : Type}

/-- The question that follows a right code, if one does. -/
def Question.next? : Question → Option Question
  | codeForUpdate => some credentials
  | oldCode => some newCode
  | _ => none

namespace Exchange

/-- The exchange with its question ended. -/
def answered (exchange : Exchange δ κ φ ρ) : Exchange δ κ φ ρ := { exchange with state := .idle }

end Exchange

namespace Handling

section Codes

variable [ReplyPort ρ]

/-- Refuse a code. -/
def refuse : Handling δ κ φ ρ Unit := do
  reply "ERR: Incorrect code"
  become .idle

/-- Send the credentials. -/
def sendListing (credentials : Credentials) : Handling δ κ φ ρ Unit := do
  replyAll credentials.lines
  reply "OK: Retrieved passwords"

section Discretion

variable [Device δ] [KeyValueStore κ] [FileStore φ]

/-- Refusing is discreet. -/
theorem Discreet.refuse {allowed : SessionState → Prop} (fine : allowed .idle) :
    Discreet allowed (refuse : Handling δ κ φ ρ Unit) :=
  .bind (.reply _) fun _ => .become fine

/-- Sending given credentials changes nothing, and leads to no question. -/
theorem Discreet.sendListing (credentials : Credentials) :
    Discreet SessionState.asksNothing (sendListing credentials : Handling δ κ φ ρ Unit) :=
  .bind (.replyAll _) fun _ => .reply _

end Discretion

/-- A code that is asked for decides whether the line is let through. -/
theorem authorize_eq (t : Text) (granted : Handling δ κ φ ρ Unit) (exchange : Exchange δ κ φ ρ) :
    authorize t granted exchange =
      (if Pin.lenient t = exchange.core.codes.primary then granted else refuse) exchange := by
  unfold authorize
  rw [bind_eq]
  by_cases right : Pin.lenient t = exchange.core.codes.primary
  · simp only [look, attempt, right, decide_true, if_true]
  · simp only [look, attempt, right, decide_false, if_false]
    rfl

end Codes

section Answers

variable [KeyValueStore κ] [ReplyPort ρ]

/-- The answer to a question that another follows leads to that one if the code is right. -/
theorem answer_of_next {question next : Question} (following : question.next? = some next)
    (t : Text) (exchange : Exchange δ κ φ ρ) :
    answer question t exchange =
      (if Pin.lenient t = exchange.core.codes.primary then ask next else refuse)
        exchange.answered := by
  cases question with
  | codeForUpdate =>
    cases following
    exact authorize_eq t (ask .credentials) exchange.answered
  | oldCode =>
    cases following
    exact authorize_eq t (ask .newCode) exchange.answered
  | credentials => cases following
  | codeForListing => cases following
  | newCode => cases following

/-- After the right code, a listing sends the credentials that are held. -/
theorem answer_codeForListing_of_right {t : Text} {exchange : Exchange δ κ φ ρ}
    (right : Pin.lenient t = exchange.core.codes.primary) :
    answer .codeForListing t exchange =
      sendListing exchange.core.credentials exchange.answered := by
  refine (authorize_eq t (do
    replyAll (← look fun core => core.credentials.lines)
    reply "OK: Retrieved passwords") exchange.answered).trans ?_
  rw [if_pos (show Pin.lenient t = exchange.answered.core.codes.primary from right)]
  rfl

/-- After a wrong code, nothing is listed. -/
theorem answer_codeForListing_of_wrong {t : Text} {exchange : Exchange δ κ φ ρ}
    (wrong : Pin.lenient t ≠ exchange.core.codes.primary) :
    answer .codeForListing t exchange = refuse exchange.answered := by
  refine (authorize_eq t (do
    replyAll (← look fun core => core.credentials.lines)
    reply "OK: Retrieved passwords") exchange.answered).trans ?_
  rw [if_neg (show Pin.lenient t ≠ exchange.answered.core.codes.primary from wrong)]

/-- The reply to an update, by how it went. -/
def updateReply : Except StoreError Unit → Text
  | .ok () => "OK: Passwords updated"
  | .error _ => "ERROR: Failed to store passwords"

/-- The reply to a new login code, by how storing it went. -/
def codeReply : Except StoreError Unit → Text
  | .ok () => "OK: New login code set"
  | .error _ => "ERROR: Failed to store login code"

/-- Credentials that are sent replace those that are held and stored, and nothing else. -/
theorem answer_credentials (t : Text) (exchange : Exchange δ κ φ ρ) :
    let updated := exchange.core.credentials.update t exchange.core.store
    answer .credentials t exchange =
      reply (updateReply updated.1)
        { exchange.answered with
          core := { exchange.core with credentials := updated.2.1, store := updated.2.2 } } := by
  change updateCredentials t exchange.answered = _
  unfold updateCredentials
  rw [bind_eq]
  simp only [attempt, Exchange.answered]
  cases exchange.core.credentials.update t exchange.core.store with
  | mk result after =>
    cases result with
    | ok _ => rfl
    | error _ => rfl

/-- A login code that is sent replaces the one in force if it is one, and nothing else. -/
theorem answer_newCode (t : Text) (exchange : Exchange δ κ φ ρ) :
    answer .newCode t exchange =
      match Pin.strict? t with
      | none => reply "ERR: Login code must be 4 digits" exchange.answered
      | some pin =>
        let chosen := exchange.core.codes.setPrimary pin exchange.core.store
        reply (codeReply chosen.1)
          { exchange.answered with
            core := { exchange.core with codes := chosen.2.1, store := chosen.2.2 } } := by
  unfold answer
  cases Pin.strict? t with
  | none => rfl
  | some pin =>
    change changeCode pin exchange.answered = _
    unfold changeCode
    rw [bind_eq]
    simp only [attempt, Exchange.answered]
    cases exchange.core.codes.setPrimary pin exchange.core.store with
    | mk result after =>
      cases result with
      | ok _ => rfl
      | error _ => rfl

end Answers

end Handling

end Keyfob
