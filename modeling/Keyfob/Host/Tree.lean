import Keyfob.Files.Basic
import Keyfob.Host.Basic

/-!
# Hosts in memory

A tree of files and directories, for rehearsals. Everything stands under its full path, which
is found by following the components of a path from the working directory.
-/
namespace Keyfob

/-- Files and directories under their full paths, written without the slash at the front. -/
structure FileTree where
  /-- The components of the working directory. -/
  home : List Text := []
  /-- What stands under each path. -/
  entries : Table DirectoryEntry := ∅
  /-- The endpoints opened so far, each with its path and the number of bytes sent to it. -/
  opened : List (List Text × Nat) := []
deriving DecidableEq

namespace FileTree

/-- What stands at a place. -/
def standing? (tree : FileTree) : List Text → Option DirectoryEntry
  | [] => some .directory
  | place => tree.entries.get? (Text.join "/" place)

/-- The tree with something at a place. -/
def put (tree : FileTree) (place : List Text) (entry : DirectoryEntry) : FileTree :=
  { tree with entries := tree.entries.insert (Text.join "/" place) entry }

/-- The place to which a path component leads from a directory. -/
def enter (place : List Text) (part : Text) : Except HostError (List Text) :=
  if part = [] ∨ part = ['.'] then .ok place
  else if part = ['.', '.'] then .ok place.dropLast
  else if part.byteLength > HostPath.longestName then .error .tooLong
  else .ok (place ++ [part])

/-- Follow the components of a path from a place. -/
def follow (tree : FileTree) (place : List Text) : List Text → Except HostError (List Text)
  | [] => .ok place
  | part :: parts =>
    match tree.standing? place with
    | none => .error .missing
    | some (.file _) => .error .notDirectory
    | some .directory => enter place part >>= fun place => tree.follow place parts

/-- The place where a path starts. -/
def start (tree : FileTree) (path : Text) : List Text :=
  if path.head? = some '/' then [] else tree.home

/-- The place that a path means. -/
def place (tree : FileTree) (path : Text) : Except HostError (List Text) :=
  match HostPath.fault? path with
  | some e => .error e
  | none =>
    if path.isEmpty then .error .missing
    else tree.follow (tree.start path) (Text.splitAll '/' path)

/-- The bytes at a place. -/
def bytesAt (tree : FileTree) (place : List Text) : Except HostError (List UInt8) :=
  match tree.standing? place with
  | some (.file bytes) => .ok bytes
  | some .directory => .error .directory
  | none => .error .missing

/-- The tree with a file at a place, unless a directory is there. -/
def writeAt (tree : FileTree) (place : List Text) (bytes : List UInt8) :
    Except HostError FileTree :=
  if tree.standing? place = some .directory then .error .directory
  else .ok (tree.put place (.file bytes))

/-- The tree with a file moved to another place. -/
def moveTo (tree : FileTree) (source target : List Text) : Except HostError FileTree := do
  let bytes ← tree.bytesAt source
  let tree := { tree with entries := tree.entries.erase (Text.join "/" source) }
  tree.writeAt target bytes

/-- The tree with the directories that lead along path components from a place. -/
def makeAlong (tree : FileTree) (place : List Text) : List Text → Except HostError FileTree
  | [] => .ok tree
  | part :: parts => do
    let place ← enter place part
    match tree.standing? place with
    | some .directory => tree.makeAlong place parts
    | some (.file _) => .error (if parts.all List.isEmpty then .occupied else .notDirectory)
    | none => (tree.put place .directory).makeAlong place parts

/-- The tree with the directories that a path leads through. -/
def makeDirectories (tree : FileTree) (path : Text) : Except HostError FileTree :=
  match HostPath.fault? path with
  | some e => .error e
  | none => tree.makeAlong (tree.start path) (Text.splitAll '/' path)

/-- The tree with some bytes written over those at a place, from an offset on. -/
def writeOver (tree : FileTree) (place : List Text) (offset : Nat) (bytes : List UInt8) :
    FileTree :=
  let held := ((tree.bytesAt place).toOption).getD []
  tree.put place
    (.file (held.take offset ++ bytes ++ held.drop (offset + bytes.length)))

/-- Change a tree, if the change is accepted. -/
def change (next : FileTree → Except HostError FileTree) :
    StateM FileTree (Except HostError Unit) := fun tree =>
  match next tree with
  | .ok tree => (.ok (), tree)
  | .error e => (.error e, tree)

instance : Host (StateM FileTree) Nat where
  read path := fun tree => (tree.place path >>= tree.bytesAt, tree)
  write path bytes := change fun tree => do tree.writeAt (← tree.place path) bytes
  move source target := change fun tree => do
    tree.moveTo (← tree.place source) (← tree.place target)
  makeDirectory path := change fun tree => tree.makeDirectories path
  openEndpoint path := fun tree =>
    match tree.place path >>= fun place => (tree.bytesAt place).map fun _ => place with
    | .ok place =>
      (.ok tree.opened.length, { tree with opened := tree.opened ++ [(place, 0)] })
    | .error e => (.error e, tree)
  send endpoint report := fun tree =>
    match tree.opened[endpoint]? with
    | none => (.error .missing, tree)
    | some (place, offset) =>
      let opened := tree.opened.set endpoint (place, offset + report.length)
      (.ok (), { tree.writeOver place offset report with opened := opened })
  wait _ := pure ()

/-- The tree with the directories that lead to a place, as far as they can be made. -/
def leading (tree : FileTree) (place : List Text) : FileTree :=
  (tree.makeAlong [] place).toOption.getD tree

/-- A tree with some files below the working directory. -/
def ofFiles (home : List Text) (files : List (Text × List UInt8)) : FileTree :=
  let start : FileTree := leading { home := home } home
  files.foldl (fun tree (path, bytes) =>
    let place := home ++ HostPath.components path
    (tree.leading place.dropLast).put place (.file bytes)) start

/-- The files below the working directory, by their paths from there. -/
def files (tree : FileTree) : List (Text × List UInt8) :=
  let home := Text.join "/" tree.home ++ "/"
  tree.entries.entries.filterMap fun
    | (path, .file bytes) => (Text.after? home path).map fun path => (path, bytes)
    | (_, .directory) => none

end FileTree

end Keyfob
