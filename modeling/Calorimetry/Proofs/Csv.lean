import Calorimetry.Csv
import Calorimetry.Proofs.Decimal.Text
import Calorimetry.Proofs.Text.Utf8

/-! What is written as comma separated values is read back. A word is a text that stands in a line as it is; the
headings of a file and the texts of finite numbers are words, and a codec is lawful if it gives back rows of words. -/

namespace Calorimetry.Csv
open Text Utf8

/-! ## Records of bytes -/

def IsPlain (b : UInt8) : Prop := b ≠ comma ∧ b ≠ quote ∧ isLineEnd b = false

section
variable {b : UInt8} {place : Place} {fields : Record} {field kept rest : Field}

private theorem IsPlain.effect (plain : IsPlain b) (outside : place ≠ .quoted) : place.effect b = .keep .plain := by
  obtain ⟨noComma, noQuote, noEnd⟩ := plain
  cases place with
  | quoted => contradiction
  | _ => simp [Place.effect, opening, unquoted, noComma, noQuote, noEnd]

private theorem recordsFrom_plain (plain : ∀ b ∈ field, IsPlain b) (outside : place ≠ .quoted) :
    recordsFrom place fields kept (field ++ rest) =
      recordsFrom (if field = [] then place else .plain) fields (field.reverse ++ kept) rest := by
  induction field generalizing place kept with
  | nil => rfl
  | cons b field ih =>
    obtain ⟨first, others⟩ := List.forall_mem_cons.mp plain
    rw [List.cons_append, recordsFrom, first.effect outside]
    dsimp only
    rw [ih others (by simp)]
    simp

private theorem recordsFrom_comma (plain : ∀ b ∈ field, IsPlain b) (some : field ≠ [])
    (outside : place ≠ .quoted) : recordsFrom place fields [] (field ++ comma :: rest) =
      recordsFrom .fieldStart (field :: fields) [] rest := by
  rw [recordsFrom_plain plain outside, if_neg some, List.append_nil, recordsFrom]
  simp [Place.effect, unquoted]

private theorem recordsFrom_lineEnd (plain : ∀ b ∈ field, IsPlain b) (some : field ≠ [])
    (outside : place ≠ .quoted) : recordsFrom place fields [] (field ++ 0x0A :: rest) =
      (field :: fields).reverse :: recordsFrom .recordStart [] [] rest := by
  rw [recordsFrom_plain plain outside, if_neg some, List.append_nil, recordsFrom]
  simp [Place.effect, unquoted, comma, isLineEnd, close]

private theorem recordsFrom_line {record : Record} (some : record ≠ [])
    (plain : ∀ field ∈ record, field ≠ [] ∧ ∀ b ∈ field, IsPlain b) (outside : place ≠ .quoted) :
    recordsFrom place fields [] (line record ++ rest) =
      (fields.reverse ++ record) :: recordsFrom .recordStart [] [] rest := by
  induction record generalizing place fields with
  | nil => contradiction
  | cons field record ih =>
    obtain ⟨⟨inked, first⟩, others⟩ := List.forall_mem_cons.mp plain
    cases record with
    | nil =>
      rw [line, List.append_assoc, List.singleton_append, recordsFrom_lineEnd first inked outside,
        List.reverse_cons]
    | cons next record =>
      rw [line, List.append_assoc, List.cons_append, recordsFrom_comma first inked outside,
        ih (by simp) others (by decide), List.reverse_cons, List.append_assoc, List.singleton_append]

private theorem withoutMark_cons (other : b ≠ 0xEF) : withoutMark (b :: rest) = b :: rest := by
  unfold withoutMark
  split
  · next same =>
    exact absurd (List.cons.inj same).1 other
  · rfl

private theorem exists_line_cons (field : Field) (record : Record) :
    ∃ rest, line (field :: record) = field ++ rest := by
  cases record <;> exact ⟨_, rfl⟩

end

/-! ## Words -/

/-- A character that is not blank and means nothing to the format. -/
def isInked (c : Char) : Bool :=
  0x20 < c.toNat && c.toNat < 0x7F && c.toNat ≠ 0x2C && c.toNat ≠ 0x22

variable {cs : List Char} {c : Char}

private theorem isInked_iff (c : Char) :
    isInked c = true ↔ 0x20 < c.toNat ∧ c.toNat < 0x7F ∧ c.toNat ≠ 0x2C ∧ c.toNat ≠ 0x22 := by
  simp [isInked, and_assoc]

private theorem isInked_of_isNumeral (numeral : Decimal.isNumeral c = true) : isInked c = true := by
  simp only [Decimal.isNumeral, Bool.or_eq_true, decide_eq_true_eq] at numeral
  rcases numeral with (((digit | rfl) | rfl) | rfl) | rfl
  · simp only [Char.isDigit, Bool.and_eq_true, decide_eq_true_eq, ge_iff_le, UInt32.le_iff_toNat_le] at digit
    have least : 48 ≤ c.toNat := digit.1
    have most : c.toNat ≤ 57 := digit.2
    rw [isInked_iff]
    omega
  all_goals decide

private theorem utf8EncodeChar_of_isInked (inked : isInked c = true) :
    String.utf8EncodeChar c = [UInt8.ofNat c.toNat] := by
  obtain ⟨least, most, _, _⟩ := (isInked_iff c).mp inked
  exact if_pos (Nat.le_of_lt_succ (Nat.lt_trans most (by decide)))

private theorem isPlain_of_isInked (inked : isInked c = true) : IsPlain (UInt8.ofNat c.toNat) := by
  obtain ⟨least, most, noComma, noQuote⟩ := (isInked_iff c).mp inked
  have byte : (UInt8.ofNat c.toNat).toNat = c.toNat := byte_toNat (by omega)
  have other {b : UInt8} (apart : c.toNat ≠ b.toNat) : UInt8.ofNat c.toNat ≠ b :=
    fun same => apart (byte ▸ congrArg UInt8.toNat same)
  refine ⟨other noComma, other noQuote, ?_⟩
  have feed : c.toNat ≠ (0x0A : UInt8).toNat := by
    simp only [UInt8.reduceToNat]
    omega
  have carriage : c.toNat ≠ (0x0D : UInt8).toNat := by
    simp only [UInt8.reduceToNat]
    omega
  simp [isLineEnd, other feed, other carriage]

private theorem isBlank_of_isInked (inked : isInked c = true) : isBlank c = false := by
  obtain ⟨least, most, _, _⟩ := (isInked_iff c).mp inked
  unfold isBlank
  dsimp only
  generalize c.toNat = n at *
  simp only [Bool.or_eq_false_iff, Bool.and_eq_false_iff, decide_eq_false_iff_not]
  omega

/-- A text that is written as it stands. -/
structure IsWord (cs : List Char) : Prop where
  some : cs ≠ []
  inked : ∀ c ∈ cs, isInked c = true

private theorem IsWord.encode_plain (word : IsWord cs) : ∀ b ∈ encode cs, IsPlain b := by
  intro b member
  obtain ⟨c, within, byte⟩ := List.mem_flatMap.mp member
  have inked := word.inked c within
  rw [utf8EncodeChar_of_isInked inked, List.mem_singleton] at byte
  exact byte ▸ isPlain_of_isInked inked

private theorem IsWord.encode_eq_cons (word : IsWord cs) :
    ∃ b bytes, encode cs = b :: bytes ∧ b ≠ 0xEF := by
  obtain ⟨some, inked⟩ := word
  cases cs with
  | nil => contradiction
  | cons c cs =>
    have first := inked c List.mem_cons_self
    obtain ⟨_, most, _, _⟩ := (isInked_iff c).mp first
    refine ⟨UInt8.ofNat c.toNat, encode cs, ?_, ?_⟩
    · rw [encode, List.flatMap_cons, utf8EncodeChar_of_isInked first]
      rfl
    · intro same
      have code := congrArg UInt8.toNat same
      rw [byte_toNat (by omega)] at code
      simp only [UInt8.reduceToNat] at code
      omega

private theorem IsWord.trim (word : IsWord cs) : trim cs = cs := by
  have visible {ds : List Char} (inked : ∀ c ∈ ds, isInked c = true) : ds.dropWhile isBlank = ds := by
    cases ds with
    | nil => rfl
    | cons c ds =>
      have first := isBlank_of_isInked (inked c List.mem_cons_self)
      simp [first]
  unfold Text.trim
  rw [visible word.inked, visible fun c member => word.inked c (List.mem_reverse.mp member),
    List.reverse_reverse]

/-- A row that is written as it stands. A line needs something on it. -/
structure IsWords (row : Row) : Prop where
  some : row ≠ []
  word : ∀ cs ∈ row, IsWord cs

variable {row : Row} {rows : List Row}

private theorem IsWords.encode_plain (words : IsWords row) :
    ∀ field ∈ row.map encode, field ≠ [] ∧ ∀ b ∈ field, IsPlain b := by
  intro field member
  obtain ⟨cs, within, rfl⟩ := List.mem_map.mp member
  have word := words.word cs within
  obtain ⟨b, bytes, starts, _⟩ := word.encode_eq_cons
  exact ⟨starts ▸ List.cons_ne_nil b bytes, word.encode_plain⟩

private theorem row?_encode (words : ∀ cs ∈ row, IsWord cs) : row? (row.map encode) = some row := by
  induction row with
  | nil => rfl
  | cons cs row ih =>
    obtain ⟨word, others⟩ := List.forall_mem_cons.mp words
    have rest := ih others
    unfold row? at rest ⊢
    rw [List.map_cons, List.mapM_cons, decode?_encode, rest]
    simp [word.trim]

/-! ## Codecs -/

/-- What is asked of a codec: finite numbers are words that read as these numbers, and rows of words read as these
rows. -/
structure Codec.Lawful (codec : Codec) : Prop where
  number_isWord {x : Float} (finite : x.isFinite = true) : IsWord (codec.number x)
  number?_number {x : Float} (finite : x.isFinite = true) : codec.number? (codec.number x) = some x
  rows_lines {rows : List Row} (words : ∀ row ∈ rows, IsWords row) :
    codec.rows (rows.flatMap codec.line) = rows.map some

private theorem usual_line (row : Row) : Codec.usual.line row = line (row.map encode) := rfl

private theorem recordsFrom_lines (words : ∀ row ∈ rows, IsWords row) :
    recordsFrom .recordStart [] [] (rows.flatMap Codec.usual.line) = rows.map (List.map encode) := by
  induction rows with
  | nil => rfl
  | cons row rows ih =>
    obtain ⟨first, others⟩ := List.forall_mem_cons.mp words
    have some : row.map encode ≠ [] := fun none => first.some (List.map_eq_nil_iff.mp none)
    rw [List.flatMap_cons, usual_line, recordsFrom_line some first.encode_plain (by decide), ih others]
    rfl

/-- The bytes of words do not begin with a byte-order mark. -/
private theorem withoutMark_lines (words : ∀ row ∈ rows, IsWords row) :
    withoutMark (rows.flatMap Codec.usual.line) = rows.flatMap Codec.usual.line := by
  cases rows with
  | nil => rfl
  | cons row rows =>
    obtain ⟨some, word⟩ := words row List.mem_cons_self
    obtain ⟨cs, row, rfl⟩ := List.exists_cons_of_ne_nil some
    obtain ⟨b, bytes, starts, other⟩ := (word cs List.mem_cons_self).encode_eq_cons
    obtain ⟨rest, front⟩ := exists_line_cons (encode cs) (row.map encode)
    rw [List.flatMap_cons, usual_line, List.map_cons, front, starts, List.cons_append, List.cons_append,
      withoutMark_cons other]

private theorem layout_readable : layout.Readable := .inl rfl

theorem Codec.usual_lawful : Codec.usual.Lawful where
  number_isWord finite := {
    some := Decimal.write_ne_nil layout_readable finite
    inked c member := isInked_of_isNumeral (Decimal.isNumeral_of_mem_write layout_readable finite c member) }
  number?_number finite := Decimal.read?_write layout_readable finite
  rows_lines {rows} words := by
    have back (row : Row) (member : row ∈ rows) : row? (row.map encode) = some row :=
      row?_encode (words row member).word
    have read : Codec.usual.rows (rows.flatMap Codec.usual.line) =
        (recordsFrom .recordStart [] [] (rows.flatMap Codec.usual.line)).map row? :=
      congrArg (fun bytes => (recordsFrom .recordStart [] [] bytes).map row?) (withoutMark_lines words)
    rw [read, recordsFrom_lines words, List.map_map]
    exact List.map_congr_left back

end Calorimetry.Csv
