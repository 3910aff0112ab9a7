import Calorimetry.Toml.Strings

/-! Reading a whole TOML document. The number `n` that the functions take bounds the characters that
are left, and so the items, entries and lines. -/

namespace Calorimetry.Toml

/-- Arrays and tables in braces nest less deep than this, and keys have fewer parts. -/
def depthLimit : Nat := 80

def isKeyChar (c : Char) : Bool := c.isAlphanum || c = '_' || c = '-'

def keyPart? (n : Nat) : List Char → Option (String × List Char)
  | '"' :: rest => (basic? n rest).map fun (k, rest) => (String.ofList k, rest)
  | '\x27' :: rest => (literal? rest).map fun (k, rest) => (String.ofList k, rest)
  | cs =>
    let k := cs.takeWhile isKeyChar
    if k.isEmpty then none else some (String.ofList k, cs.dropWhile isKeyChar)

/-- The parts of a key, of which there are at most so many, with the blanks around them. -/
def keyParts? (n : Nat) : Nat → List Char → Option (Path × List Char)
  | 0, _ => none
  | parts + 1, cs => do
    let (k, rest) ← keyPart? n (skipBlanks cs)
    match skipBlanks rest with
    | '.' :: more =>
      let (ks, rest) ← keyParts? n parts more
      some (k :: ks, rest)
    | rest => some ([k], rest)

def key? (n : Nat) (cs : List Char) : Option (Path × List Char) := keyParts? n (depthLimit - 1) cs

abbrev ValueReader := Nat → List Char → Option (Toml × List Char)

def entry? (value? : ValueReader) (n : Nat) (cs : List Char) :
    Option ((Path × Toml) × List Char) := do
  let (path, rest) ← key? n cs
  let '=' :: rest := rest | none
  let (v, rest) ← value? n (skipBlanks rest)
  some ((path, v), skipBlanks rest)

/-- The rest of an array after a bracket or a comma. -/
def arrayItems? (value? : ValueReader) : Nat → List Char → Option (List Toml × List Char)
  | 0, _ => none
  | n + 1, cs =>
    match skipSpace (n + 1) cs with
    | ']' :: rest => some ([], rest)
    | cs => do
      let (v, rest) ← value? (n + 1) cs
      match skipSpace (n + 1) rest with
      | ']' :: rest => some ([v], rest)
      | ',' :: rest =>
        let (vs, rest) ← arrayItems? value? n rest
        some (v :: vs, rest)
      | _ => none

/-- The rest of a table in braces from an entry on. -/
def braceEntries? (value? : ValueReader) : Nat → List Char → Option (List (Path × Toml) × List Char)
  | 0, _ => none
  | n + 1, cs => do
    let (e, rest) ← entry? value? (n + 1) cs
    match rest with
    | '}' :: rest => some ([e], rest)
    | ',' :: rest =>
      let (es, rest) ← braceEntries? value? n rest
      some (e :: es, rest)
    | _ => none

def value? : Nat → ValueReader
  | room, n, '[' :: rest =>
    match room with
    | 0 => none
    | room + 1 => do
      let (items, rest) ← arrayItems? (value? room) n rest
      some (.array items, rest)
  | room, n, '{' :: rest =>
    match room with
    | 0 => none
    | room + 1 =>
      match skipBlanks rest with
      | '}' :: rest => some (.table .braces [], rest)
      | _ => do
        let (entries, rest) ← braceEntries? (value? room) n rest
        some (.table .braces (← Entries.insertAll [] entries), rest)
  | _, n, cs =>
    match string? n cs with
    | some (s, rest) => some (.text (String.ofList s), rest)
    | none => bare? cs

def lines? : Nat → List Char → Option (List (Path × Toml) × List Char)
  | 0, cs => some ([], cs)
  | n + 1, cs =>
    match skipBlanks cs with
    | [] => some ([], [])
    | '[' :: rest => some ([], '[' :: rest)
    | cs =>
      match afterLine? cs with
      | some rest => lines? n rest
      | none => do
        let (e, rest) ← entry? (value? (depthLimit - 1)) (n + 1) cs
        let (es, rest) ← lines? n (← afterLine? rest)
        some (e :: es, rest)

/-- A header, and whether it stands in double brackets. -/
def header? (n : Nat) : List Char → Option ((Bool × Path) × List Char)
  | '[' :: '[' :: rest => do
    let (path, rest) ← key? n rest
    let ']' :: ']' :: rest := rest | none
    some ((true, path), ← afterLine? rest)
  | '[' :: rest => do
    let (path, rest) ← key? n rest
    let ']' :: rest := rest | none
    some ((false, path), ← afterLine? rest)
  | _ => none

def sections? : Nat → List Char → Option (List Section)
  | _, [] => some []
  | 0, _ => none
  | n + 1, cs => do
    let ((repeated, path), rest) ← header? (n + 1) cs
    let (entries, rest) ← lines? n rest
    some (⟨repeated, path, entries⟩ :: (← sections? n rest))

/-- A byte-order mark at the front is skipped. -/
def document? (cs : List Char) : Option Document := do
  let cs := if cs.head? = some '\ufeff' then cs.tail else cs
  let n := cs.length
  let (entries, rest) ← lines? n cs
  some ⟨entries, ← sections? n rest⟩

def read? (text : String) : Option Entries := do
  Entries.ofDocument? (← document? text.toList)

end Calorimetry.Toml
