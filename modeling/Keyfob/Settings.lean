import Keyfob.Access.Codes
import Keyfob.Script.Machine

/-!
# Settings

What the owner of the device can choose beforehand. The fields stand in the order in which a
settings file lists them.
-/
namespace Keyfob

/-- What the owner can choose. The primary code among the codes is not a setting: it is kept in
the store. -/
structure Settings where
  /-- The name that the device reports. -/
  deviceName : Text := "PWDongle"
  /-- The file that holds the store. -/
  storePath : Text := "./pwdongle/store.json"
  /-- The directory that holds macro files. -/
  macroDirectory : Text := "./pwdongle/macros"
  /-- Whether wireless lines that are no command are typed on the host. -/
  dualRelay : Bool := true
  /-- The pause after each character of macro text, in milliseconds. -/
  typingSpeed : UInt32 := 10
  /-- The pause after each byte of a file that is typed byte for byte, in milliseconds. -/
  filePacing : UInt32 := 3
  /-- The most wireless lines that one pass of the main loop handles. -/
  wirelessCap : Nat := 4
  /-- The most bytes of one wireless write, zero for no limit. -/
  wirelessChunk : Nat := 20
  /-- The most instructions that one run of a script executes. -/
  scriptBudget : Nat := Script.defaultBudget
  /-- The address at which the wireless link is simulated. -/
  wirelessAddress : Text := "127.0.0.1:7878"
  /-- The codes entered on the pad. -/
  codes : AccessCodes := {}
deriving DecidableEq

namespace Settings

/-- The settings of someone who chose none, with everything kept in a directory for data. -/
def inDirectory (data : Text) : Settings :=
  { storePath := data ++ "/pwdongle/store.json", macroDirectory := data ++ "/pwdongle/macros" }

end Settings

end Keyfob
