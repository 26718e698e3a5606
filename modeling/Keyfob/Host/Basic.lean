import Keyfob.Text.Utf8

/-!
# Hosts

A host is a computer on which commands run: it keeps files under paths and has endpoints to
which reports are sent. What a host does is a class of monads, so that the same command runs on
a real computer and on one in memory.
-/
namespace Keyfob

/-- Why a host refused something. -/
inductive HostError where
  /-- There is nothing under the path. -/
  | missing
  /-- Something stands where a directory was to be made. -/
  | occupied
  /-- The path leads through a file. -/
  | notDirectory
  /-- A directory stands where a file was expected. -/
  | directory
  /-- The path, or a component of it, is too long. -/
  | tooLong
  /-- There is a null character in the path. -/
  | null
  /-- Another cause, in the words of the host. -/
  | other (message : Text)
deriving DecidableEq

/-- The text that reports an error. -/
def HostError.message : HostError → Text
  | missing => "No such file or directory (os error 2)"
  | occupied => "File exists (os error 17)"
  | notDirectory => "Not a directory (os error 20)"
  | directory => "Is a directory (os error 21)"
  | tooLong => "File name too long (os error 36)"
  | null => "file name contained an unexpected NUL byte"
  | other message => message

/-- A monad in which files can be kept and reports sent; `ω` stands for endpoints that are
open. -/
class Host (m : Type → Type) (ω : outParam Type) where
  /-- The bytes of a file. -/
  read : Text → m (Except HostError (List UInt8))
  /-- Make a file with some bytes, in place of any that is there. -/
  write : Text → List UInt8 → m (Except HostError Unit)
  /-- Give a file another path, in place of any file that is there. -/
  move : Text → Text → m (Except HostError Unit)
  /-- Make a directory and all that lead to it, as far as they are missing. -/
  makeDirectory : Text → m (Except HostError Unit)
  /-- Open something that exists for sending reports. -/
  openEndpoint : Text → m (Except HostError ω)
  /-- Send a report. -/
  send : ω → List UInt8 → m (Except HostError Unit)
  /-- Wait for some milliseconds. -/
  wait : UInt32 → m Unit

/-- A computation that may fail for causes of its own runs on the same host. -/
instance {m : Type → Type} {ω ε : Type} [Monad m] [Host m ω] : Host (ExceptT ε m) ω where
  read path := ExceptT.lift (Host.read path)
  write path bytes := ExceptT.lift (Host.write path bytes)
  move source target := ExceptT.lift (Host.move source target)
  makeDirectory path := ExceptT.lift (Host.makeDirectory path)
  openEndpoint path := ExceptT.lift (Host.openEndpoint path)
  send endpoint report := ExceptT.lift (Host.send endpoint report)
  wait ms := ExceptT.lift (Host.wait ms)

namespace HostPath

/-- How many bytes a path has at most. -/
def longest : Nat := 4095

/-- How many bytes a component of a path has at most. -/
def longestName : Nat := 255

/-- What is wrong with a path on every host. -/
def fault? (path : Text) : Option HostError :=
  if path.contains '\x00' then some .null
  else if path.byteLength > longest then some .tooLong
  else none

/-- The components of a path that name something. -/
def components (path : Text) : List Text :=
  (Text.splitAll '/' path).filter fun part => part ≠ [] ∧ part ≠ ['.']

/-- A path, last character first, without the slashes at its end and the single dots after
them. -/
def trimBack : Text → Text
  | ['/'] => ['/']
  | '/' :: front => trimBack front
  | '.' :: '/' :: front => trimBack ('/' :: front)
  | back => back

/-- A path without the slashes at its end and the single dots after them. -/
def trimmed (path : Text) : Text := (trimBack path.reverse).reverse

/-- The last component, if it is the name of something in a directory. -/
def fileName? (path : Text) : Option Text :=
  let name := ((trimBack path.reverse).takeWhile (· ≠ '/')).reverse
  if name = [] ∨ name = ['.'] ∨ name = ['.', '.'] then none else some name

/-- The directory that the last component is in. -/
def directory (path : Text) : Text :=
  let front := trimmed ((trimBack path.reverse).dropWhile (· ≠ '/')).reverse
  if front.isEmpty then "." else front

/-- A name in a directory. -/
def inside (directory name : Text) : Text := directory ++ "/" ++ name

/-- A name without its extension, and the extension if it has one. A dot at the front of a name
begins none. -/
def cutExtension (name : Text) : Text × Option Text :=
  match Text.cutLast? '.' name with
  | some (front, back) => if front.isEmpty then (name, none) else (front, some back)
  | none => (name, none)

/-- The extension of what a path leads to. -/
def extension? (path : Text) : Option Text := (fileName? path).bind fun name =>
  (cutExtension name).2

/-- A reversed text without its first bytes, where these are whole characters. -/
def dropBytes : Nat → Text → Text
  | 0, t => t
  | _ + 1, [] => []
  | count + 1, c :: cs =>
    if c.utf8Size ≤ count + 1 then dropBytes (count + 1 - c.utf8Size) cs else c :: cs

/-- A path with another extension. The path first loses as many bytes at its end as its own
extension has, even where slashes end it; a path that then leads to no name stays like that. -/
def withExtension (extension path : Text) : Text :=
  let bytes := ((extension? path).map Text.byteLength).getD 0
  let cut := (dropBytes bytes path.reverse).reverse
  match fileName? cut with
  | none => cut
  | some name =>
    let lost := name.length - (cutExtension name).1.length
    (trimmed cut).take ((trimmed cut).length - lost) ++ "." ++ extension

end HostPath

end Keyfob
