/-! Names of files in their directory. -/

namespace Calorimetry

abbrev FileName := List Char

namespace FileName

/-- A name that leads nowhere. -/
def isIdle (name : FileName) : Bool := name = [] || name = ['.']

def above : FileName := ['.', '.']

def isProper (name : FileName) : Bool := !isIdle name && name ≠ above

/-- A name without its extension: what stands before the last dot, unless that is the first
character. -/
def stem (name : FileName) : FileName :=
  let front := (name.reverse.dropWhile (· ≠ '.')).tail.reverse
  if front.isEmpty then name else front

/-- What stands behind the dot that ends the stem. -/
def extension (name : FileName) : List Char := name.drop ((stem name).length + 1)

def width (cs : List Char) : Nat := cs.foldl (fun n c => n + c.utf8Size) 0

def maxWidth : Nat := 255

end FileName
end Calorimetry
