import Calorimetry.Decimal.Text
import Calorimetry.Proofs.Decimal.Shortest
import Mathlib

/-! Numbers written and read. A text names its number by digits, a point and an exponent, and what a layout writes
of a double names a number in its interval. So it is read back as that double, with its sign. -/

namespace Calorimetry.Decimal
open Binary64

def IsDigits (cs : List Char) : Prop := ∀ c ∈ cs, c.isDigit = true

variable {cs ds : List Char}

private theorem isDigits_nil : IsDigits [] := fun _ member => absurd member List.not_mem_nil

private theorem isDigits_toDigits (n : ℕ) : IsDigits (Nat.toDigits 10 n) :=
  fun _ member => Nat.isDigit_of_mem_toDigits (by norm_num) (by norm_num) member

private theorem isDigits_zeros (n : ℕ) : IsDigits (zeros n) := by
  intro c member
  rw [List.eq_of_mem_replicate member]
  rfl

private theorem IsDigits.append (first : IsDigits cs) (second : IsDigits ds) : IsDigits (cs ++ ds) :=
  fun c member => (List.mem_append.mp member).elim (first c) (second c)

private theorem toDigits_ne_nil (n : ℕ) : Nat.toDigits 10 n ≠ [] :=
  List.ne_nil_of_length_pos Nat.length_toDigits_pos

private theorem valueOf_append (cs ds : List Char) :
    valueOf (cs ++ ds) = valueOf cs * 10 ^ ds.length + valueOf ds := by
  have split := Nat.ofDigitChars_append (b := 10) (l := cs) (m := ds) 0
  rw [Nat.ofDigitChars_eq_ofDigitChars_zero (l := ds), Nat.mul_comm] at split
  exact split

@[simp] theorem valueOf_zeros (n : ℕ) : valueOf (zeros n) = 0 :=
  Nat.ofDigitChars_replicate_zero

@[simp] theorem valueOf_toDigits (n : ℕ) : valueOf (Nat.toDigits 10 n) = n :=
  Nat.ofDigitChars_ten_toDigits

@[simp] theorem length_zeros (n : ℕ) : (zeros n).length = n := List.length_replicate

private theorem spanDigits_append (digits : IsDigits cs) (stop : ∀ c ∈ ds.head?, c.isDigit = false) :
    spanDigits (cs ++ ds) = (cs, ds) := by
  unfold spanDigits
  rw [List.takeWhile_append_of_pos digits, List.dropWhile_append_of_pos digits]
  cases ds with
  | nil => simp
  | cons c ds =>
    have other : c.isDigit = false := stop c rfl
    simp [other]

/-! ## Reading -/

/-- The point and the digits behind it. -/
def point (fraction : List Char) : List Char := if fraction.isEmpty then [] else '.' :: fraction

/-- What stands behind the digits and scales them. -/
inductive Scales : List Char → ℤ → Prop
  | nothing : Scales [] 0
  | mark {text : List Char} {shift : ℤ} (read : exponent? text = some shift) : Scales ('e' :: text) shift

variable {whole fraction tail : List Char} {shift : ℤ}

private theorem Scales.stop (scales : Scales tail shift) : ∀ c ∈ tail.head?, c.isDigit = false := by
  cases scales <;> simp

private theorem unsigned?_eq (some : whole ≠ []) (digits : IsDigits whole) (digits' : IsDigits fraction)
    (scales : Scales tail shift) : unsigned? (whole ++ (point fraction ++ tail)) =
      .some (nearest (valueOf (whole ++ fraction)) (shift - fraction.length)) := by
  have stop : ∀ c ∈ (point fraction ++ tail).head?, c.isDigit = false := by
    unfold point
    split
    · exact scales.stop
    · simp
  have rest := spanDigits_append digits' scales.stop
  have front : whole.isEmpty = false := by simpa using some
  unfold unsigned?
  rw [spanDigits_append digits stop]
  cases scales with
  | nothing =>
    cases fraction with
    | nil => simp [point, front]
    | cons c fraction =>
      rw [List.append_nil] at rest
      simp [point, front, rest]
  | mark read =>
    cases fraction with
    | nil => simp [point, front, read]
    | cons c fraction =>
      rw [List.cons_append] at rest
      simp [point, front, rest, read]

private theorem exponent?_digits {cs : List Char} (digits : IsDigits cs) (some : cs ≠ []) :
    exponent? cs = .some (valueOf cs) ∧ exponent? ('+' :: cs) = .some (valueOf cs) ∧
      exponent? ('-' :: cs) = .some (-valueOf cs) := by
  have all : cs.all Char.isDigit = true := List.all_eq_true.mpr digits
  have front : cs.isEmpty = false := by simpa using some
  refine ⟨?_, by simp [exponent?, all, front], by simp [exponent?, all, front]⟩
  cases cs with
  | nil => contradiction
  | cons c cs =>
    have plus : c ≠ '+' := by
      rintro rfl
      cases digits '+' List.mem_cons_self
    have minus : c ≠ '-' := by
      rintro rfl
      cases digits '-' List.mem_cons_self
    simp [exponent?, plus, minus, all]

/-- An exponent that is not negative has a plus, if any sign. -/
def Layout.Readable (l : Layout) : Prop := l.exponentSign = [] ∨ l.exponentSign = ['+']

private theorem exponent?_written {l : Layout} (readable : l.Readable) (e : ℤ) :
    exponent? ((if e < 0 then ['-'] else l.exponentSign) ++ Nat.toDigits 10 e.natAbs) = some e := by
  obtain ⟨plain, plus, minus⟩ :=
    exponent?_digits (isDigits_toDigits e.natAbs) (toDigits_ne_nil e.natAbs)
  rw [valueOf_toDigits] at plain plus minus
  split
  · next negative =>
    rw [List.singleton_append, minus]
    congr 1
    omega
  · next up =>
    have same : (e.natAbs : ℤ) = e := by omega
    rcases readable with none | some
    · rw [none, List.nil_append, plain, same]
    · rw [some, List.singleton_append, plus, same]

/-! ## Writing -/

def isNumeral (c : Char) : Bool := c.isDigit || c = '.' || c = 'e' || c = '-' || c = '+'

private theorem IsDigits.numeral (digits : IsDigits cs) : ∀ c ∈ cs, isNumeral c = true :=
  fun c member => by simp [isNumeral, digits c member]

private theorem numeral_of_exponent? {e : ℤ} (read : exponent? cs = some e) : ∀ c ∈ cs, isNumeral c = true := by
  unfold exponent? at read
  split at read
  next negative digits parts =>
  split at read
  · cases read
  · next sound =>
    simp only [Bool.or_eq_true, Bool.not_eq_true', not_or, Bool.not_eq_false] at sound
    have plain := IsDigits.numeral (List.all_eq_true.mp sound.2)
    split at parts
    · cases parts
      exact List.forall_mem_cons.mpr ⟨rfl, plain⟩
    · cases parts
      exact List.forall_mem_cons.mpr ⟨rfl, plain⟩
    · cases parts
      exact plain

/-- The text names the number `v`, and begins with a digit. -/
structure Names (cs : List Char) (v : ℚ) : Prop where
  first : ∃ c rest, cs = c :: rest ∧ c.isDigit = true
  plain : ∀ c ∈ cs, isNumeral c = true
  read : ∃ m e, unsigned? cs = some (nearest m e) ∧ (m * 10 ^ e : ℚ) = v

private theorem names_of_parts (some : whole ≠ []) (digits : IsDigits whole) (digits' : IsDigits fraction)
    (scales : Scales tail shift) : Names (whole ++ (point fraction ++ tail))
      (valueOf (whole ++ fraction) * 10 ^ (shift - fraction.length)) where
  first := by
    cases whole with
    | nil => contradiction
    | cons c whole => exact ⟨c, _, rfl, digits c List.mem_cons_self⟩
  plain := by
    have behind : ∀ c ∈ point fraction, isNumeral c = true := by
      unfold point
      split
      · simp
      · exact List.forall_mem_cons.mpr ⟨rfl, digits'.numeral⟩
    have last : ∀ c ∈ tail, isNumeral c = true := by
      cases scales with
      | nothing => simp
      | mark read => exact List.forall_mem_cons.mpr ⟨rfl, numeral_of_exponent? read⟩
    exact List.forall_mem_append.mpr ⟨digits.numeral, List.forall_mem_append.mpr ⟨behind, last⟩⟩
  read := ⟨_, _, unsigned?_eq some digits digits' scales, rfl⟩

private theorem names_whole (digits : IsDigits cs) (some : cs ≠ []) (n : ℕ) (withPoint : Bool) :
    Names (cs ++ zeros n ++ if withPoint then ['.', '0'] else []) (valueOf cs * 10 ^ (n : ℤ)) := by
  have padded := digits.append (isDigits_zeros n)
  have some' : cs ++ zeros n ≠ [] := by simp [some]
  cases withPoint with
  | false =>
    have named := names_of_parts some' padded isDigits_nil .nothing
    simpa [point, valueOf_append] using named
  | true =>
    have named := names_of_parts some' padded (isDigits_zeros 1) .nothing
    have value : (valueOf (cs ++ zeros n ++ zeros 1) : ℚ) * 10 ^ (0 - ((zeros 1).length : ℤ)) =
        valueOf cs * 10 ^ (n : ℤ) := by
      simp only [valueOf_append, valueOf_zeros, length_zeros, add_zero]
      push_cast
      rw [zpow_neg_one, mul_inv_cancel_right₀ (by norm_num), zpow_natCast]
    rw [value] at named
    simpa [point, zeros] using named

private theorem names_inside (digits : IsDigits cs) {places : ℕ} (positive : 0 < places)
    (inside : places < cs.length) :
    Names (cs.take (cs.length - places) ++ '.' :: cs.drop (cs.length - places))
      (valueOf cs * 10 ^ (-places : ℤ)) := by
  have front : cs.take (cs.length - places) ≠ [] := List.ne_nil_of_length_pos (by simp; omega)
  have behind : cs.drop (cs.length - places) ≠ [] := List.ne_nil_of_length_pos (by simp; omega)
  have digits' : IsDigits (cs.drop (cs.length - places)) :=
    fun c member => digits c (List.mem_of_mem_drop member)
  have named := names_of_parts front (fun c member => digits c (List.mem_of_mem_take member)) digits' .nothing
  have shift : (0 - ((cs.drop (cs.length - places)).length : ℤ)) = -places := by
    rw [List.length_drop]
    omega
  rw [List.take_append_drop, shift] at named
  simpa [point, behind] using named

private theorem names_before (digits : IsDigits cs) (some : cs ≠ []) {places : ℕ} (before : cs.length ≤ places) :
    Names ('0' :: '.' :: zeros (places - cs.length) ++ cs) (valueOf cs * 10 ^ (-places : ℤ)) := by
  have behind : zeros (places - cs.length) ++ cs ≠ [] := by simp [some]
  have named := names_of_parts (List.cons_ne_nil '0' []) (isDigits_zeros 1)
    ((isDigits_zeros (places - cs.length)).append digits) .nothing
  have shift : (0 - ((zeros (places - cs.length) ++ cs).length : ℤ)) = -places := by
    rw [List.length_append, length_zeros]
    omega
  have value : valueOf (['0'] ++ (zeros (places - cs.length) ++ cs)) = valueOf cs := by
    rw [← List.append_assoc, valueOf_append]
    have none : valueOf (['0'] ++ zeros (places - cs.length)) = 0 := valueOf_zeros (places - cs.length + 1)
    rw [none, Nat.zero_mul, Nat.zero_add]
  rw [value, shift] at named
  simpa [point, behind] using named

private theorem names_positional (l : Layout) (d : Digits) : Names (positionalText l d) d.value := by
  have digits := isDigits_toDigits d.digits
  have some := toDigits_ne_nil d.digits
  unfold positionalText
  dsimp only
  split
  · next up =>
    have named := names_whole digits some d.exponent.toNat l.wholePoint
    rwa [valueOf_toDigits, Int.toNat_of_nonneg up] at named
  · next down =>
    have places : -((-d.exponent).toNat : ℤ) = d.exponent := by omega
    split
    · next inside =>
      have named := names_inside digits (by omega) inside
      rwa [valueOf_toDigits, places] at named
    · next before =>
      have named := names_before digits some (not_lt.mp before)
      rwa [valueOf_toDigits, places] at named

private theorem names_exponent {l : Layout} (readable : l.Readable) (d : Digits) :
    Names (exponentText l d) d.value := by
  have digits := isDigits_toDigits d.digits
  have some := toDigits_ne_nil d.digits
  have value := valueOf_toDigits d.digits
  unfold exponentText
  dsimp only
  generalize Nat.toDigits 10 d.digits = cs at *
  have count : 0 < cs.length := List.length_pos_iff.mpr some
  have first : cs.take 1 ≠ [] := by simp [some]
  have named := names_of_parts first (fun c member => digits c (List.mem_of_mem_take member))
    (fun c member => digits c (List.mem_of_mem_tail member))
    (.mark (exponent?_written readable (d.exponent + cs.length - 1)))
  have all : cs.take 1 ++ cs.tail = cs := by
    rw [← List.drop_one]
    exact List.take_append_drop 1 cs
  have shift : d.exponent + cs.length - 1 - (cs.tail.length : ℤ) = d.exponent := by
    rw [List.length_tail]
    omega
  rw [all, value, shift] at named
  simpa [point, Digits.value] using named

private theorem Names.magnitude? {v : ℚ} (named : Names cs v) :
    ∃ m e, Decimal.magnitude? cs = some (nearest m e) ∧ (m * 10 ^ e : ℚ) = v := by
  obtain ⟨⟨c, rest, rfl, digit⟩, _, read⟩ := named
  -- No name of infinity or of the undefined value begins with a digit.
  have lower : c.toLower = c := by grind [Char.isDigit, Char.toLower]
  have first : c ≠ 'i' := by
    rintro rfl
    cases digit
  have other : c ≠ 'n' := by
    rintro rfl
    cases digit
  have plain : Decimal.magnitude? (c :: rest) = unsigned? (c :: rest) := by
    simp [Decimal.magnitude?, lower, first, other]
  rwa [plain]

variable {l : Layout}

/-- What a layout writes of a finite double without its sign names a number nearest to it. -/
private theorem magnitudeText_names (readable : l.Readable) {bits : ℕ}
    (finite : bits < infinityBits) : ∃ v : ℚ, Names (magnitudeText l bits) v ∧
      ∀ (m : ℕ) (e : ℤ), (m * 10 ^ e : ℚ) = v → nearest m e = bits := by
  unfold magnitudeText
  split
  · next zero =>
    refine ⟨0, ?_, ?_⟩
    · have named := names_whole (isDigits_zeros 1) (List.cons_ne_nil '0' []) 0 l.wholePoint
      rw [valueOf_zeros, Nat.cast_zero, zero_mul] at named
      exact named
    · intro m e none
      have power : (10 : ℚ) ^ e ≠ 0 := zpow_ne_zero e (by norm_num)
      have none : m = 0 := by simpa [power] using none
      rw [none, zero]
      rfl
  · next nonzero =>
    have some := Nat.pos_of_ne_zero nonzero
    refine ⟨(shortest l.tie bits).value, ?_, ?_⟩
    · dsimp only
      split
      · exact names_positional l _
      · exact names_exponent readable _
    · intro m e value
      exact nearest_eq some finite (value ▸ shortest_holds some l.tie)

private theorem ofMagnitude_magnitude (x : Float) : ofMagnitude (isNegative x) (magnitude x) = x := by
  have bound : x.toBits.toNat < 2 ^ 64 := x.toBits.toNat_lt
  have pattern : (if isNegative x then Nat.pow 2 63 + magnitude x else magnitude x) = x.toBits.toNat := by
    simp only [isNegative, magnitude, Nat.pow_eq, decide_eq_true_eq]
    split <;> omega
  rw [ofMagnitude, pattern, UInt64.ofNat_toNat, Float.ofBits_toBits]

private theorem Layout.write_of_isFinite (l : Layout) {x : Float} (finite : x.isFinite = true) :
    l.write x = (if isNegative x then ['-'] else []) ++ magnitudeText l (magnitude x) := by
  have below := magnitude_lt_of_isFinite finite
  unfold Layout.write
  dsimp only
  rw [if_neg (Nat.lt_asymm below), if_neg below.ne]

theorem isNumeral_of_mem_write (readable : l.Readable) {x : Float}
    (finite : x.isFinite = true) : ∀ c ∈ l.write x, isNumeral c = true := by
  obtain ⟨v, named, _⟩ := magnitudeText_names readable (magnitude_lt_of_isFinite finite)
  rw [l.write_of_isFinite finite, List.forall_mem_append]
  refine ⟨?_, named.plain⟩
  split <;> simp [isNumeral]

theorem write_ne_nil (readable : l.Readable) {x : Float}
    (finite : x.isFinite = true) : l.write x ≠ [] := by
  obtain ⟨v, ⟨⟨c, rest, text, _⟩, _, _⟩, _⟩ := magnitudeText_names readable (magnitude_lt_of_isFinite finite)
  rw [l.write_of_isFinite finite, text]
  simp

/-- Every finite double is read back from its text. -/
theorem read?_write (readable : l.Readable) {x : Float}
    (finite : x.isFinite = true) : read? (l.write x) = some x := by
  obtain ⟨v, named, nearest⟩ := magnitudeText_names readable (magnitude_lt_of_isFinite finite)
  obtain ⟨m, e, read, value⟩ := named.magnitude?
  obtain ⟨c, rest, text, digit⟩ := named.first
  have double := ofMagnitude_magnitude x
  rw [nearest m e value, text] at read
  rw [l.write_of_isFinite finite, text]
  cases negative : isNegative x with
  | true =>
    rw [negative] at double
    simp [read?, read, double]
  | false =>
    rw [negative] at double
    have plus : c ≠ '+' := by
      rintro rfl
      cases digit
    have minus : c ≠ '-' := by
      rintro rfl
      cases digit
    simp [read?, plus, minus, read, double]

end Calorimetry.Decimal
