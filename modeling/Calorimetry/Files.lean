import Calorimetry.Files.Path

/-! A file system as a map from locations to contents, and the steps in which a file is written. -/

namespace Calorimetry

inductive FileFault where
  | notFound
  | isDirectory
  | notDirectory
  | nameTooLong
  | nullInName
  | busy
  | other (text : String)
  deriving DecidableEq

def FileFault.message : FileFault → String
  | notFound => "No such file or directory (os error 2)"
  | isDirectory => "Is a directory (os error 21)"
  | notDirectory => "Not a directory (os error 20)"
  | nameTooLong => "File name too long (os error 36)"
  | nullInName => "file name contained an unexpected NUL byte"
  | busy => "Device or resource busy (os error 16)"
  | other text => text

inductive FileStep where
  | create (path : FilePath)
  | write (path : FilePath) (bytes : List UInt8)
  | sync (path : FilePath)
  | rename (source target : FilePath)
  deriving DecidableEq

/-- Besides the directories told, there are the root, the working directory and those above it. -/
structure Files where
  contents : List (Location × List UInt8) := []
  directories : List Location := []

namespace Files

def content? (f : Files) (l : Location) : Option (List UInt8) := f.contents.lookup l

def remove (f : Files) (l : Location) : Files :=
  { f with contents := f.contents.filter fun e => e.1 ≠ l }

def put (f : Files) (l : Location) (bytes : List UInt8) : Files :=
  { f with contents := (l, bytes) :: (f.remove l).contents }

def store (f : Files) (l : Location) (bytes : List UInt8) : Files :=
  { f.put l bytes with directories := f.directories ++ (List.range l.length).map l.take }

def isDirectory (f : Files) (l : Location) : Bool :=
  l = Location.root || l.isAbove || f.directories.contains l

/-- Names lead on from directories only. -/
def advance (f : Files) (l : Location) (name : FileName) : Except FileFault Location :=
  if !f.isDirectory l then .error (if (f.content? l).isSome then .notDirectory else .notFound)
  else if FileName.maxWidth < FileName.width name then .error .nameTooLong
  else .ok (l.enter name)

/-- Where names of a path lead. The last one need not be there. -/
def follow (f : Files) (path : FilePath) (names : List FileName) : Except FileFault Location :=
  if path.characters.contains (Char.ofNat 0) then .error .nullInName
  else if path.characters.isEmpty then .error .notFound
  else if FilePath.maxWidth < FileName.width path.characters then .error .nameTooLong
  else names.foldlM f.advance path.start

def read (f : Files) (path : FilePath) : Except FileFault (List UInt8) := do
  let l ← f.follow path path.names
  if f.isDirectory l then throw .isDirectory
  match f.content? l with
  | some bytes => pure bytes
  | none => throw .notFound

/-- Puts a file where it may be: in a directory, and not in place of one. -/
def place (f : Files) (path : FilePath) (bytes : List UInt8) : Except FileFault Files := do
  let l ← f.follow path path.names
  if f.isDirectory l then throw .isDirectory
  return f.put l bytes

/-- Where a file can be moved to: the path ends in a name for it, with no slash behind. -/
def landing (f : Files) (path : FilePath) : Except FileFault Location := do
  let names := (path.names.reverse.dropWhile List.isEmpty).reverse
  let l ← f.follow path names
  if !names.getLast?.any FileName.isProper then throw .busy
  if names.length < path.names.length then throw .notDirectory
  if f.isDirectory l then throw .isDirectory
  return l

/-- Creating empties a file that is there, and writing appends. A renamed file takes the place of
the target. -/
def perform (f : Files) : FileStep → Except FileFault Files
  | .create path => f.place path []
  | .write path bytes => do f.place path ((← f.read path) ++ bytes)
  | .sync _ => .ok f
  | .rename source target => do
    let bytes ← f.read source
    let l ← f.landing target
    let after := f.put l bytes
    return if source.location = l then after else after.remove source.location

end Files

structure FileAccess (m : Type → Type) where
  read : FilePath → m (Except FileFault (List UInt8))
  perform : FileStep → m (Except FileFault Unit)

namespace FileAccess

def performAll {m : Type → Type} [Monad m] (access : FileAccess m) :
    List FileStep → m (Except (FileStep × FileFault) Unit)
  | [] => pure (.ok ())
  | step :: rest => do
    match ← access.perform step with
    | .ok () => access.performAll rest
    | .error fault => pure (.error (step, fault))

/-- Access to files kept as a state. A step that fails leaves them as they are. -/
def stored : FileAccess (StateM Files) where
  read path := do return (← get).read path
  perform step := do
    match (← get).perform step with
    | .ok after => set after; return .ok ()
    | .error fault => return .error fault

end FileAccess
end Calorimetry
