import Keyfob.Session.Exchange

/-!
# Dialogs

A dialog asks for the login code before it shows or changes what is secret. Each answer ends
the dialog or leads to its next question, and a wrong code ends it.
-/
namespace Keyfob

/-- The reply that asks a question. -/
def Question.prompt : Question → Text
  | codeForUpdate => "OK: Enter the login code to authorize PW update"
  | credentials => "OK: Authorized. Please send NAME,DATA"
  | codeForListing => "OK: Enter the login code"
  | oldCode => "OK: Enter current login code."
  | newCode => "OK: Code accepted. Please enter the new code."

namespace Handling

variable {δ κ φ ρ : Type} [KeyValueStore κ] [ReplyPort ρ]

/-- Ask a question. -/
def ask (question : Question) : Handling δ κ φ ρ Unit := do
  reply question.prompt
  become (.asking question)

/-- Go on if a text holds the login code. -/
def authorize (t : Text) (granted : Handling δ κ φ ρ Unit) : Handling δ κ φ ρ Unit := do
  if ← look fun core => decide (Pin.lenient t = core.codes.primary) then granted
  else
    reply "ERR: Incorrect code"
    become .idle

/-- Replace the credentials by those that a text spells. -/
def updateCredentials (t : Text) : Handling δ κ φ ρ Unit := do
  let result ← attempt fun core =>
    let (result, credentials, store) := core.credentials.update t core.store
    (result, { core with credentials := credentials, store := store })
  match result with
  | .ok () => reply "OK: Passwords updated"
  | .error _ => reply "ERROR: Failed to store passwords"

/-- Choose a login code. -/
def changeCode (pin : Pin) : Handling δ κ φ ρ Unit := do
  let result ← attempt fun core =>
    let (result, codes, store) := core.codes.setPrimary pin core.store
    (result, { core with codes := codes, store := store })
  match result with
  | .ok () => reply "OK: New login code set"
  | .error _ => reply "ERROR: Failed to store login code"

/-- Take a text as the answer to a question. -/
def answer (question : Question) (t : Text) : Handling δ κ φ ρ Unit := do
  become .idle
  match question with
  | .codeForUpdate => authorize t (ask .credentials)
  | .credentials => updateCredentials t
  | .codeForListing =>
    authorize t do
      replyAll (← look fun core => core.credentials.lines)
      reply "OK: Retrieved passwords"
  | .oldCode => authorize t (ask .newCode)
  | .newCode =>
    match Pin.strict? t with
    | some pin => changeCode pin
    | none => reply "ERR: Login code must be 4 digits"

end Handling

end Keyfob
