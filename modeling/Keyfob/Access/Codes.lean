import Keyfob.Access.Pin
import Keyfob.Store.Basic

/-!
# Access codes and boot requests

Five codes decide what happens after the pad: one opens the credentials, one types files, and
three ask for another mode at the next start. The primary code and the boot requests are kept in
the store; a change of the code writes its digits one by one.
-/
namespace Keyfob

/-- A mode that the next start can be asked for. -/
inductive BootMode where
  /-- The wireless link. -/
  | ble
  /-- The serial link. -/
  | cdc
  /-- Mass storage. -/
  | msc
deriving DecidableEq

namespace BootMode

/-- Every mode, the first winning where several are asked for. -/
def all : List BootMode := [ble, cdc, msc]

/-- The namespace that holds the request for a mode. -/
def space : BootMode → Text
  | ble => "BLE"
  | cdc => "CDC"
  | msc => "MSC"

/-- The key of the request for a mode. -/
def key : BootMode → Text
  | ble => "bootToBLE"
  | cdc => "bootToCDC"
  | msc => "bootToMSC"

/-- The name under which a mode is shown. -/
def name : BootMode → Text
  | ble => "BLE"
  | cdc => "serial (CDC)"
  | msc => "mass storage"

variable {κ : Type} [KeyValueStore κ]

/-- Ask for a mode at the next start. -/
def request (mode : BootMode) (store : κ) : Except StoreError Unit × κ :=
  KeyValueStore.set mode.space mode.key (.bool true) store

/-- Take the requests for some modes back, given the one that won so far: the first mode asked
for, each request being cleared as it is found. -/
def takeFrom (won : Option BootMode) : List BootMode → κ → Except StoreError (Option BootMode) × κ
  | [], store => (.ok won, store)
  | mode :: modes, store =>
    if KeyValueStore.getBool? store mode.space mode.key = some true then
      match KeyValueStore.set mode.space mode.key (.bool false) store with
      | (.ok (), store) => takeFrom (won.or (some mode)) modes store
      | (.error e, store) => (.error e, store)
    else takeFrom won modes store

/-- The mode that was asked for, all requests being taken back. -/
def take (store : κ) : Except StoreError (Option BootMode) × κ := takeFrom none all store

end BootMode

/-- What an entered code does. -/
inductive PinMatch where
  /-- It opens the credentials. -/
  | primary
  /-- It asks for a mode. -/
  | boot (mode : BootMode)
  /-- It goes on to typing files. -/
  | files
  /-- It does nothing. -/
  | rejected
deriving DecidableEq

/-- The codes that are known. -/
structure AccessCodes where
  /-- The code that opens the credentials, kept in the store. -/
  primary : Pin := .ofNats 1 1 2 2
  /-- The code that asks for the serial link. -/
  cdc : Pin := .ofNats 7 2 7 3
  /-- The code that asks for the wireless link. -/
  ble : Pin := .ofNats 0 0 0 0
  /-- The code that goes on to typing files. -/
  file : Pin := .ofNats 5 5 5 0
  /-- The code that asks for mass storage. -/
  msc : Pin := .ofNats 0 0 0 1
deriving DecidableEq

namespace AccessCodes

/-- What a code does, the first of several meanings counting. -/
def classify (codes : AccessCodes) (pin : Pin) : PinMatch :=
  if pin = codes.ble then .boot .ble
  else if pin = codes.file then .files
  else if pin = codes.msc then .boot .msc
  else if pin = codes.cdc then .boot .cdc
  else if pin = codes.primary then .primary
  else .rejected

/-- The primary code where none was chosen. -/
def defaultPrimary : Pin := .ofNats 1 1 2 2

/-- The namespace that holds the primary code. -/
def space : Text := "SEC"

/-- The key of one digit of the primary code. -/
def key (place : Nat) : Text := "code".toList ++ Text.ofNat place

variable {κ : Type} [KeyValueStore κ]

/-- The stored digit at a place. -/
def storedDigit? (store : κ) (place : Nat) : Option Digit :=
  (KeyValueStore.getInt? store space (key place)).map fun value =>
    Pin.lastDigit (value.toInt % 10).toNat

/-- The stored code, if all of its digits are there. -/
def stored? (store : κ) : Option Pin :=
  match storedDigit? store 0, storedDigit? store 1, storedDigit? store 2, storedDigit? store 3 with
  | some a, some b, some c, some d => some (Pin.of a b c d)
  | _, _, _, _ => none

/-- The changes that store a code. -/
def changes (pin : Pin) : List KeyValueStore.Change :=
  pin.digits.toList.zipIdx.map fun (digit, place) =>
    .set space (key place) (.int (Int64.ofNat digit.val))

/-- Choose a primary code and store it. It is in force at once, also where storing it fails. -/
def setPrimary (codes : AccessCodes) (pin : Pin) (store : κ) :
    Except StoreError Unit × AccessCodes × κ :=
  let (result, store) := KeyValueStore.applyAll (changes pin) store
  (result, { codes with primary := pin }, store)

/-- Take the primary code from the store; where a digit is missing, choose the default. -/
def loadPrimary (codes : AccessCodes) (store : κ) : Except StoreError Unit × AccessCodes × κ :=
  match stored? store with
  | some pin => (.ok (), { codes with primary := pin }, store)
  | none => codes.setPrimary defaultPrimary store

end AccessCodes

end Keyfob
