/-! Values of a TOML document, and how keys and tables may be added to a table. A table remembers
how it came about, because that decides what may be added to it later. -/

namespace Calorimetry

/-- A table is written out under its own header, implied by the header of a table inside it, made
by a dotted key, or written in braces, after which nothing is added to it. -/
inductive TableOrigin where
  | header
  | implied
  | dotted
  | braces
  deriving DecidableEq, BEq

/-- Of dates and times only that they are there is kept, and the entries of a table are in no order.
`tables` are those under a header in double brackets, the last one first. -/
inductive Toml where
  | text (s : String)
  | integer (n : Int)
  | float (x : Float)
  | boolean (b : Bool)
  | moment
  | array (items : List Toml)
  | table (origin : TableOrigin) (entries : List (String × Toml))
  | tables (items : List (List (String × Toml)))

namespace Toml

abbrev Entries := List (String × Toml)

abbrev Path := List String

structure Section where
  repeated : Bool
  path : Path
  entries : List (Path × Toml)

structure Document where
  entries : List (Path × Toml)
  sections : List Section

namespace Entries

def get? (t : Entries) (key : String) : Option Toml := t.lookup key

def has (t : Entries) (key : String) : Bool := (t.get? key).isSome

def add (t : Entries) (key : String) (v : Toml) : Entries := (key, v) :: t

def replace (t : Entries) (key : String) (v : Toml) : Entries :=
  t.map fun e => if e.1 = key then (key, v) else e

/-- Changes the table at the end of a path by `change`, which is told how it came about; tables
that are missing are made on the way. Of repeated tables the last one is meant. Nothing is added to
a table in braces, nor by dotted keys to one with a header. -/
def descend (byDots : Bool) (change : TableOrigin → Entries → Option Entries) :
    Path → TableOrigin → Entries → Option Entries
  | [], origin, t => change origin t
  | key :: rest, _, t =>
    match t.get? key with
    | none =>
      let origin := if byDots then .dotted else .implied
      (descend byDots change rest origin []).map fun sub => t.add key (.table origin sub)
    | some (.table origin sub) =>
      if origin = .braces || (byDots && origin = .header) then none
      else (descend byDots change rest origin sub).map fun sub => t.replace key (.table origin sub)
    | some (.tables items) =>
      (descend byDots change rest .header (items.head?.getD [])).map fun last =>
        t.replace key (.tables (last :: items.tail))
    | some _ => none

/-- Adds a new key under a dotted path. The tables on the way are made by dotted keys alone. -/
def insert (t : Entries) (path : Path) (v : Toml) : Option Entries :=
  match path.getLast? with
  | none => none
  | some key =>
    let above := path.dropLast
    descend true (fun origin sub =>
      if (origin == .dotted) != above.isEmpty && !sub.has key then some (sub.add key v) else none)
      above .header t

def insertAll (t : Entries) (entries : List (Path × Toml)) : Option Entries :=
  entries.foldlM (fun t e => t.insert e.1 e.2) t

/-- Adds a section. A header defines a table once, also one that was implied before; a header in
double brackets adds one more table. -/
def place (t : Entries) (s : Section) : Option Entries :=
  match s.path.getLast? with
  | none => none
  | some key =>
    descend false (fun _ sub =>
      match s.repeated, sub.get? key with
      | false, none => (insertAll [] s.entries).map fun e => sub.add key (.table .header e)
      | false, some (.table .implied e) =>
        (insertAll e s.entries).map fun e => sub.replace key (.table .header e)
      | true, none => (insertAll [] s.entries).map fun e => sub.add key (.tables [e])
      | true, some (.tables items) =>
        (insertAll [] s.entries).map fun e => sub.replace key (.tables (e :: items))
      | _, _ => none) s.path.dropLast .header t

def ofDocument? (d : Document) : Option Entries := do
  d.sections.foldlM place (← insertAll [] d.entries)

end Entries
end Toml
end Calorimetry
