import Calorimetry.Files.Name

/-! Paths of files: the text as given, and the names on the way to the file. -/

namespace Calorimetry

/-- Names from the working directory, or from the root if the first is a slash. -/
abbrev Location := List FileName

namespace Location

def root : Location := [['/']]

/-- The working directory, or one above it. -/
def isAbove (l : Location) : Bool := l.all (· = FileName.above)

/-- Above the root there is the root. What is above the working directory is told by the way there. -/
def parent (l : Location) : Location :=
  if l = root then root else if l.isAbove then l ++ [FileName.above] else l.dropLast

def enter (l : Location) (name : FileName) : Location :=
  if FileName.isIdle name then l else if name = FileName.above then l.parent else l ++ [name]

end Location

structure FilePath where
  characters : List Char
  deriving DecidableEq

namespace FilePath

def ofText (s : String) : FilePath := ⟨s.toList⟩

def text (p : FilePath) : String := String.ofList p.characters

def maxWidth : Nat := 4095

def segments : List Char → List FileName
  | [] => [[]]
  | c :: cs =>
    match segments cs with
    | [] => [[c]]
    | s :: rest => if c = '/' then [] :: s :: rest else (c :: s) :: rest

/-- The names in their order. Two slashes have an empty one between them, and one at the end has an
empty one behind it. -/
def names (p : FilePath) : List FileName := segments p.characters

def start (p : FilePath) : Location := if p.characters.head? = some '/' then Location.root else []

def location (p : FilePath) : Location := p.names.foldl Location.enter p.start

/-- The text before the last name and that name, if the path ends in a name that a file can have. -/
def lastName? (p : FilePath) : Option (List Char × FileName) :=
  match p.names.reverse.dropWhile FileName.isIdle with
  | [] => none
  | name :: before =>
    if FileName.isProper name then some (before.reverse.flatMap (· ++ ['/']), name) else none

/-- As many characters as the extension has go from the end. What then is the last name gives its
stem to the new extension; a path without such a name stays as it is by then, so `..a` leaves `..`. -/
def withExtension (p : FilePath) (new : List Char) : FilePath :=
  let excess := (p.lastName?.map fun l => (FileName.extension l.2).length).getD 0
  let bare : FilePath := ⟨p.characters.take (p.characters.length - excess)⟩
  match bare.lastName? with
  | none => bare
  | some (before, name) => ⟨before ++ FileName.stem name ++ '.' :: new⟩

end FilePath
end Calorimetry
