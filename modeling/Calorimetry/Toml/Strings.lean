import Calorimetry.Toml.Scalars

/-! Blanks, line ends, comments and quoted strings of a TOML document. A function that reads one of
them takes the text after the opening mark and gives what was read with the rest. Where it takes a
number, no more characters than that are left. -/

namespace Calorimetry.Toml

def isBlank (c : Char) : Bool := c = ' ' || c = '\t'

/-- Characters that may stand as they are in comments and strings: all but controls, and tabs. -/
def isPlain (c : Char) : Bool := c = '\t' || (' ' ≤ c && c ≠ '\x7f')

def skipBlanks (cs : List Char) : List Char := cs.dropWhile isBlank

def afterNewline? : List Char → Option (List Char)
  | '\n' :: rest => some rest
  | '\x0d' :: '\n' :: rest => some rest
  | _ => none

def skipComment : List Char → List Char
  | '#' :: rest => rest.dropWhile isPlain
  | cs => cs

/-- What follows the end of a line that may have blanks and a comment before it. -/
def afterLine? (cs : List Char) : Option (List Char) :=
  match skipComment (skipBlanks cs) with
  | [] => some []
  | cs => afterNewline? cs

def skipSpace : Nat → List Char → List Char
  | 0, cs => skipBlanks cs
  | n + 1, cs =>
    match afterNewline? (skipComment (skipBlanks cs)) with
    | some rest => skipSpace n rest
    | none => skipBlanks cs

def ofCodePoint? (width : Nat) (digits : List Char) : Option Char :=
  let n := inBase 16 digits
  if digits.length = width && digits.all isHexDigit && n.isValidChar then some (Char.ofNat n)
  else none

def escape? : List Char → Option (Char × List Char)
  | 'b' :: rest => some ('\x08', rest)
  | 't' :: rest => some ('\t', rest)
  | 'n' :: rest => some ('\n', rest)
  | 'f' :: rest => some ('\x0c', rest)
  | 'r' :: rest => some ('\x0d', rest)
  | '"' :: rest => some ('"', rest)
  | '\\' :: rest => some ('\\', rest)
  | 'u' :: rest => (ofCodePoint? 4 (rest.take 4)).map (·, rest.drop 4)
  | 'U' :: rest => (ofCodePoint? 8 (rest.take 8)).map (·, rest.drop 8)
  | _ => none

def basic? : Nat → List Char → Option (List Char × List Char)
  | _, '"' :: rest => some ([], rest)
  | n + 1, '\\' :: rest => do
    let (c, rest) ← escape? rest
    let (cs, rest) ← basic? n rest
    some (c :: cs, rest)
  | n + 1, c :: rest =>
    if isPlain c then (basic? n rest).map fun (cs, rest) => (c :: cs, rest) else none
  | _, _ => none

def literal? (cs : List Char) : Option (List Char × List Char) :=
  match cs.dropWhile fun c => isPlain c && c ≠ '\x27' with
  | '\x27' :: rest => some (cs.takeWhile fun c => isPlain c && c ≠ '\x27', rest)
  | _ => none

def countQuotes (quote : Char) (cs : List Char) : Nat := (cs.takeWhile (· = quote)).length

/-- A string in triple quotes. Up to two quotes may stand inside and right before the closing three.
With escapes, a backslash at the end of a line joins it to the next text. -/
def multiline? (quote : Char) (escapes : Bool) : Nat → List Char → Option (List Char × List Char)
  | 0, _ => none
  | n + 1, cs =>
    let quotes := countQuotes quote cs
    let inside := List.replicate (quotes - 3) quote
    if 5 < quotes then none
    else if 3 ≤ quotes then some (inside, cs.drop quotes)
    else match afterNewline? cs with
      | some rest => (multiline? quote escapes n rest).map fun (t, rest) => ('\n' :: t, rest)
      | none =>
        match cs with
        | [] => none
        | c :: rest =>
          if escapes && c = '\\' then
            match afterNewline? (skipBlanks rest) with
            | some next => multiline? quote escapes n (skipAnyBlank n next)
            | none => do
              let (c, rest) ← escape? rest
              let (t, rest) ← multiline? quote escapes n rest
              some (c :: t, rest)
          else if isPlain c then
            (multiline? quote escapes n rest).map fun (t, rest) => (c :: t, rest)
          else none
where
  /-- Skips blanks and line ends, but no comments. -/
  skipAnyBlank : Nat → List Char → List Char
    | 0, cs => cs
    | n + 1, cs =>
      match afterNewline? (skipBlanks cs) with
      | some rest => skipAnyBlank n rest
      | none => skipBlanks cs

/-- A string in triple quotes without the line end that may follow the opening ones. -/
def block? (quote : Char) (escapes : Bool) (n : Nat) (cs : List Char) :
    Option (List Char × List Char) :=
  multiline? quote escapes n ((afterNewline? cs).getD cs)

def string? (n : Nat) : List Char → Option (List Char × List Char)
  | '"' :: '"' :: '"' :: rest => block? '"' true n rest
  | '\x27' :: '\x27' :: '\x27' :: rest => block? '\x27' false n rest
  | '"' :: rest => basic? n rest
  | '\x27' :: rest => literal? rest
  | _ => none

end Calorimetry.Toml
