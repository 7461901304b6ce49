import Dfs.Library.CText

/-!
# Lines and numbers as the C library reads them

`fgets` cuts a stream into lines, the numbers of `atoi` and of `%d` begin
behind white space, and digits that do not fit a `long` saturate before they
are converted to an `int`.
-/

namespace CInput

open CText

/-- `fgets` with room for so many bytes before the terminator: the line with
its newline, and what is left of the stream. -/
def fgets : Nat → Text → Text × Text
  | 0, input => ([], input)
  | _ + 1, [] => ([], [])
  | room + 1, byte :: input =>
      if byte = '\n' then ([byte], input)
      else
        let (line, rest) := fgets room input
        (byte :: line, rest)

/-- The line is ended where its newline stands. -/
def chomp (line : Text) : Text := (terminated line).takeWhile (· ≠ '\n')

theorem fgets_append (room : Nat) (input : Text) :
    (fgets room input).1 ++ (fgets room input).2 = input := by
  fun_induction fgets room input with
  | case1 input => rfl
  | case2 room => rfl
  | case3 room input => rfl
  | case4 room byte input other line rest read ih =>
      rw [read] at ih
      rw [List.cons_append, ih]

/-- A call that reads something gets ahead in the stream. -/
theorem length_fgets_lt {room : Nat} {input : Text}
    (read : (fgets room input).1 ≠ []) :
    (fgets room input).2.length < input.length := by
  have whole := congrArg List.length (fgets_append room input)
  have some := List.length_pos_iff.mpr read
  rw [List.length_append] at whole
  omega

/-- A line that fits is returned as a whole. -/
theorem fgets_line {room : Nat} {entry : Text} (oneLine : '\n' ∉ entry)
    (fits : entry.length < room) (input : Text) :
    fgets room (entry ++ '\n' :: input) = (entry ++ ['\n'], input) := by
  induction entry generalizing room with
  | nil =>
      obtain ⟨room, rfl⟩ := Nat.exists_eq_succ_of_ne_zero (by omega : room ≠ 0)
      rfl
  | cons byte entry ih =>
      rw [List.mem_cons, not_or] at oneLine
      rw [List.length_cons] at fits
      obtain ⟨room, rfl⟩ := Nat.exists_eq_succ_of_ne_zero (by omega : room ≠ 0)
      have other : byte ≠ '\n' := fun same => oneLine.1 same.symm
      rw [List.cons_append, fgets, if_neg other, ih oneLine.2 (by omega)]
      rfl

theorem chomp_typed {entry : Text} (oneLine : '\n' ∉ entry)
    (nulFree : nul ∉ entry) : chomp (entry ++ ['\n']) = entry := by
  have whole : terminated (entry ++ ['\n']) = entry ++ ['\n'] := by
    apply terminated_eq_self
    rw [List.mem_append, not_or]
    exact ⟨nulFree, by decide⟩
  rw [chomp, whole, List.takeWhile_append_of_pos]
  · simp
  · intro byte member
    simpa using fun same : byte = '\n' => oneLine (same ▸ member)

/-- Lines, each with the newline that ends it. -/
def ended (lines : List Text) : Text := (lines.map (· ++ ['\n'])).flatten

def labelled (label value : Text) : Text := label ++ ':' :: ' ' :: value

theorem intercalate_ended (before : List Text) {after : List Text}
    (some : after ≠ []) :
    ['\n'].intercalate (before ++ after) =
      ended before ++ ['\n'].intercalate after := by
  induction before with
  | nil => rfl
  | cons line before ih =>
      rw [List.cons_append, List.intercalate_cons_of_ne_nil (by simp [some]),
        ih]
      simp [ended]

/-- The search passes over lines that do not have the pattern. -/
theorem fromFirst_ended {pattern : Text} (oneLine : '\n' ∉ pattern)
    {lines : List Text} (absent : ∀ line ∈ lines, ¬ pattern <:+: line)
    (rest : Text) :
    fromFirst pattern (ended lines ++ rest) = fromFirst pattern rest := by
  induction lines with
  | nil => rfl
  | cons line lines ih =>
      have here := fromFirst_eq_none_iff.mpr (absent line List.mem_cons_self)
      have behind := ih fun line member =>
        absent line (List.mem_cons_of_mem _ member)
      have split : ended (line :: lines) ++ rest =
          line ++ '\n' :: (ended lines ++ rest) := by simp [ended]
      rw [split, fromFirst_append_cons oneLine, here]
      exact behind

theorem fromFirst_of_begins {pattern text : Text} (begins : pattern <+: text) :
    fromFirst pattern text = some text := by
  rw [fromFirst, strstr_of_prefix begins]
  rfl

/-- The first occurrence is not behind one that is known. -/
theorem exists_fromFirst {pattern back : Text} (begins : pattern <+: back)
    (front : Text) :
    ∃ found ∈ fromFirst pattern (front ++ back), back <:+ found := by
  induction front with
  | nil => exact ⟨back, fromFirst_of_begins begins, List.suffix_rfl⟩
  | cons byte front ih =>
      rw [List.cons_append, fromFirst_cons]
      split
      · exact ⟨_, rfl, (List.suffix_append front back).trans
          (List.suffix_cons byte _)⟩
      · exact ih

/-- A label stands in a labelled line only if it ends the label there or is
written in the value. -/
theorem infix_labelled {name label value : Text} (nameFree : ':' ∉ name)
    (starts : name.head? ≠ some ' ') (labelFree : ':' ∉ label)
    (other : ¬ name <:+ label) (absent : ¬ labelled name [] <:+: value) :
    ¬ labelled name [] <:+: labelled label value := by
  have around := @infix_at_separator name ':' label [' '] (' ' :: value)
    nameFree labelFree
  intro part
  rcases around.mp part with ⟨ends, _⟩ | behind
  · exact other ends
  · rcases List.infix_cons_iff.mp behind with begins | behind
    · cases name with
      | nil => exact other (List.nil_suffix)
      | cons byte name =>
          rw [List.cons_append, List.cons_prefix_cons] at begins
          exact starts (by rw [begins.1]; rfl)
    · exact absent behind

/-- The decimal digits of a number, behind a sign if it is negative. -/
def decimal : Int → Text
  | .ofNat number => Nat.toDigits 10 number
  | .negSucc number => '-' :: Nat.toDigits 10 (number + 1)

/-- The digits at the front of a text and what follows, `none` without a
digit. -/
def scanDigits (text : Text) : Option (Nat × Text) :=
  let found := text.takeWhile Char.isDigit
  if found = [] then none
  else some (Nat.ofDigitChars 10 found 0, text.drop found.length)

/-- A sign and digits. -/
def scanSigned : Text → Option (Int × Text)
  | [] => none
  | byte :: text =>
      if byte = '-' then
        (scanDigits text).map fun (number, rest) => (-(number : Int), rest)
      else if byte = '+' then
        (scanDigits text).map fun (number, rest) => ((number : Int), rest)
      else
        (scanDigits (byte :: text)).map fun (number, rest) =>
          ((number : Int), rest)

/-- The value as a `long`, at its bounds for a number that does not fit. -/
def saturate (value : Int) : Int :=
  max (-9223372036854775808) (min value 9223372036854775807)

/-- The bits of a `long` that an `int` keeps. -/
def toInt (value : Int) : Int := Int.bmod value 4294967296

/-- `%d` of `sscanf`: the value and what follows. -/
def scanInt (text : Text) : Option (Int × Text) :=
  (scanSigned (text.dropWhile isSpace)).map fun (value, rest) =>
    (toInt (saturate value), rest)

/-- `atoi`, zero for a text without a number. -/
def atoi (text : Text) : Int :=
  match scanInt text with
  | some (value, _) => value
  | none => 0

/-- A value of the type `int`. -/
def IsInt (value : Int) : Prop := -2147483648 ≤ value ∧ value < 2147483648

instance (value : Int) : Decidable (IsInt value) :=
  inferInstanceAs (Decidable (_ ∧ _))

theorem isInt_toInt (value : Int) : IsInt (toInt value) := by
  have least := @Int.le_bmod value 4294967296 (by decide)
  have most := @Int.bmod_lt value 4294967296 (by decide)
  constructor
  · exact least
  · exact most

theorem toInt_saturate {value : Int} (isInt : IsInt value) :
    toInt (saturate value) = value := by
  obtain ⟨least, most⟩ := isInt
  have within : saturate value = value := by
    unfold saturate
    omega
  rw [within, toInt, Int.bmod_eq_of_le] <;> omega

theorem isInt_scanInt {text : Text} {found : Int × Text}
    (scanned : scanInt text = some found) : IsInt found.1 := by
  obtain ⟨_, _, rfl⟩ := Option.map_eq_some_iff.mp scanned
  exact isInt_toInt _

theorem isInt_atoi (text : Text) : IsInt (atoi text) := by
  unfold atoi
  split
  · rename_i scanned
    exact isInt_scanInt scanned
  · decide

/-- Something other than a digit, or nothing, follows. -/
def StopsDigits (rest : Text) : Prop :=
  ∀ byte ∈ rest.head?, byte.isDigit = false

theorem scanDigits_toDigits (number : Nat) {rest : Text}
    (stops : StopsDigits rest) :
    scanDigits (Nat.toDigits 10 number ++ rest) = some (number, rest) := by
  have front : (Nat.toDigits 10 number ++ rest).takeWhile Char.isDigit =
      Nat.toDigits 10 number := by
    rw [List.takeWhile_append_of_pos]
    · cases rest with
      | nil => simp
      | cons byte rest =>
          have stop := stops byte (by simp)
          simp [stop]
    · intro byte member
      exact Nat.isDigit_of_mem_toDigits (by simp) (by simp) member
  have inhabited : Nat.toDigits 10 number ≠ [] := Nat.toDigits_ne_nil
  simp only [scanDigits, front]
  rw [if_neg inhabited, Nat.ofDigitChars_ten_toDigits, List.drop_left]

theorem scanSigned_decimal (value : Int) {rest : Text}
    (stops : StopsDigits rest) :
    scanSigned (decimal value ++ rest) = some (value, rest) := by
  cases value with
  | ofNat number =>
      have digits := scanDigits_toDigits number stops
      simp only [decimal]
      cases text : Nat.toDigits 10 number with
      | nil => exact (Nat.toDigits_ne_nil text).elim
      | cons byte others =>
          have digit : byte.isDigit = true :=
            Nat.isDigit_of_mem_toDigits (by simp) (by simp)
              (text ▸ List.mem_cons_self)
          have noMinus : byte ≠ '-' := by
            rintro rfl
            cases digit
          have noPlus : byte ≠ '+' := by
            rintro rfl
            cases digit
          rw [text, List.cons_append] at digits
          rw [List.cons_append, scanSigned, if_neg noMinus, if_neg noPlus,
            digits]
          rfl
  | negSucc number =>
      rw [decimal, List.cons_append, scanSigned, if_pos rfl,
        scanDigits_toDigits _ stops]
      rfl

theorem isSpace_decimal_head (value : Int) (rest : Text) :
    (decimal value ++ rest).dropWhile isSpace = decimal value ++ rest := by
  have solid : ∀ byte ∈ (decimal value).head?, isSpace byte = false := by
    intro byte member
    have inside := List.mem_of_mem_head? member
    cases value with
    | ofNat number =>
        have digit : byte.isDigit = true :=
          Nat.isDigit_of_mem_toDigits (by simp) (by simp) inside
        cases space : isSpace byte with
        | false => rfl
        | true =>
            simp only [isSpace, Bool.or_eq_true, beq_iff_eq] at space
            rcases space with ((((rfl | rfl) | rfl) | rfl) | rfl) | rfl <;>
              cases digit
    | negSucc number =>
        simp only [decimal, List.head?_cons, Option.mem_def,
          Option.some.injEq] at member
        rw [← member]
        decide
  cases text : decimal value with
  | nil =>
      cases value with
      | ofNat number => exact (Nat.toDigits_ne_nil text).elim
      | negSucc number => cases text
  | cons byte others =>
      have first := solid byte (by rw [text]; rfl)
      rw [List.cons_append, List.dropWhile_cons, first]
      rfl

theorem scanInt_decimal {value : Int} (isInt : IsInt value) {rest : Text}
    (stops : StopsDigits rest) :
    scanInt (decimal value ++ rest) = some (value, rest) := by
  rw [scanInt, isSpace_decimal_head, scanSigned_decimal value stops,
    Option.map_some]
  change some (toInt (saturate value), rest) = _
  rw [toInt_saturate isInt]

theorem atoi_decimal {value : Int} (isInt : IsInt value) :
    atoi (decimal value) = value := by
  have scanned := @scanInt_decimal value isInt [] (by simp [StopsDigits])
  rw [List.append_nil] at scanned
  rw [atoi, scanned]

end CInput
