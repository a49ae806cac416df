import DripStone.Library.JavaText

/-!
# String literals of JavaScript

The reader of a single-quoted string literal, with all its escape sequences.
A literal is never shorter than its value, and as long only if it is the value
itself between the quotes.
-/

namespace DripStone.Library.ScriptLiteral

def lineFeed : JChar := 0x0A

def carriageReturn : JChar := 0x0D

def singleQuote : JChar := 0x27

def backslash : JChar := 0x5C

/-- A unit that stands for itself in a single-quoted literal.  The line and
paragraph separators U+2028 and U+2029 do. -/
def IsPlain (unit : JChar) : Prop :=
  unit ≠ singleQuote ∧ unit ≠ backslash ∧ unit ≠ lineFeed ∧
    unit ≠ carriageReturn

instance : DecidablePred IsPlain :=
  fun _ => inferInstanceAs (Decidable (_ ∧ _))

/-- A text of units that stand for themselves. -/
abbrev Plain (text : List JChar) : Prop :=
  ∀ unit ∈ text, IsPlain unit

/-! ## Escape sequences -/

/-- The value of a hexadecimal digit. -/
def hexDigit (unit : JChar) : Option Nat :=
  if 0x30 ≤ unit.toNat ∧ unit.toNat ≤ 0x39 then some (unit.toNat - 0x30)
  else if 0x41 ≤ unit.toNat ∧ unit.toNat ≤ 0x46 then
    some (unit.toNat - 0x37)
  else if 0x61 ≤ unit.toNat ∧ unit.toNat ≤ 0x66 then
    some (unit.toNat - 0x57)
  else none

/-- The value of hexadecimal digits, if all are. -/
def hexValue (units : List JChar) : Option Nat :=
  units.foldl (fun value unit => do
    let value ← value
    let digit ← hexDigit unit
    pure (16 * value + digit)) (some 0)

/-- What the escape sequence at the head of a text stands for, and how many
units it has. -/
structure Escape where
  value : List JChar
  length : Nat
deriving DecidableEq, Repr

def hexEscape (digits : List JChar) (count : Nat) : Option Escape :=
  if (digits.take count).length = count then
    (hexValue (digits.take count)).map fun value =>
      ⟨[BitVec.ofNat 16 value], count + 1⟩
  else none

/-- `u{...}` behind the brace. -/
def braceEscape (digits : List JChar) : Option Escape :=
  let inside := digits.takeWhile fun unit => (hexDigit unit).isSome
  if inside ≠ [] ∧ digits[inside.length]? = some 0x7D then
    match hexValue inside with
    | some value =>
        if value ≤ 0x10FFFF then
          some ⟨unitsOf value, inside.length + 3⟩
        else none
    | none => none
  else none

def isOctal (unit : JChar) : Bool :=
  0x30 ≤ unit.toNat && unit.toNat ≤ 0x37

/-- One to three octal digits, with a value below 256. -/
def octalEscape (first : JChar) (rest : List JChar) : Escape :=
  let most := if unit_le_three first then 2 else 1
  let more := (rest.take most).takeWhile isOctal
  ⟨[BitVec.ofNat 16 ((first :: more).foldl
      (fun value unit => 8 * value + (unit.toNat - 0x30)) 0)],
    more.length + 1⟩
where
  unit_le_three (unit : JChar) : Bool := unit.toNat ≤ 0x33

/-- What `b`, `f`, `n`, `r`, `t` and `v` stand for; other units stand for
themselves. -/
def singleEscape (unit : JChar) : JChar :=
  if unit = 0x62 then 0x08
  else if unit = 0x66 then 0x0C
  else if unit = 0x6E then 0x0A
  else if unit = 0x72 then 0x0D
  else if unit = 0x74 then 0x09
  else if unit = 0x76 then 0x0B
  else unit

/-- `u` and a code point, behind the `u`. -/
def unicodeEscape (rest : List JChar) : Option Escape :=
  if rest.head? = some 0x7B then braceEscape rest.tail
  else hexEscape rest 4

/-- A line terminator, of one or two units. -/
def lineContinuation (first : JChar) (rest : List JChar) : Option Escape :=
  if first = carriageReturn ∧ rest.head? = some lineFeed then
    some ⟨[], 2⟩
  else if first = lineFeed ∨ first = carriageReturn ∨ first = 0x2028 ∨
      first = 0x2029 then some ⟨[], 1⟩
  else none

/-- The escape sequence behind a backslash. -/
def escape : List JChar → Option Escape
  | [] => none
  | first :: rest =>
      match lineContinuation first rest with
      | some continued => some continued
      | none =>
          if isOctal first then some (octalEscape first rest)
          -- `x`
          else if first = 0x78 then hexEscape rest 2
          -- `u`
          else if first = 0x75 then unicodeEscape rest
          else some ⟨[singleEscape first], 1⟩

/-! ## The literal -/

/-- The literal behind its opening quote: its value, and what follows the
closing quote. -/
def readBody : List JChar → Option (List JChar × List JChar)
  | [] => none
  | unit :: rest =>
      if unit = singleQuote then some ([], rest)
      else if unit = backslash then
        match escape rest with
        | some found =>
            (readBody (rest.drop found.length)).map fun read =>
              (found.value ++ read.1, read.2)
        | none => none
      else if unit = lineFeed ∨ unit = carriageReturn then none
      else (readBody rest).map fun read => (unit :: read.1, read.2)
termination_by text => text.length
decreasing_by
  · rw [List.length_drop, List.length_cons]
    omega
  · exact Nat.lt_succ_self _

/-- A single-quoted literal at the head of a text. -/
def readLiteral : List JChar → Option (List JChar × List JChar)
  | [] => none
  | unit :: rest => if unit = singleQuote then readBody rest else none

/-! ## Lengths -/

theorem length_unitsOf_le (codePoint : Nat) :
    (unitsOf codePoint).length ≤ 2 := by
  rw [unitsOf]
  split_ifs <;> simp

theorem hexEscape_length {digits : List JChar} {count : Nat}
    {found : Escape} (reads : hexEscape digits count = some found) :
    found.value.length ≤ found.length := by
  rw [hexEscape] at reads
  split_ifs at reads
  obtain ⟨value, _, rfl⟩ := Option.map_eq_some_iff.mp reads
  simp

theorem braceEscape_length {digits : List JChar} {found : Escape}
    (reads : braceEscape digits = some found) :
    found.value.length ≤ found.length := by
  simp only [braceEscape] at reads
  split_ifs at reads
  split at reads
  · rename_i value _
    split_ifs at reads
    obtain rfl := Option.some.inj reads
    have few := length_unitsOf_le value
    simp only
    omega
  · exact absurd reads (by simp)

theorem unicodeEscape_length {text : List JChar} {found : Escape}
    (reads : unicodeEscape text = some found) :
    found.value.length ≤ found.length := by
  rw [unicodeEscape] at reads
  split_ifs at reads
  · exact braceEscape_length reads
  · exact hexEscape_length reads

theorem lineContinuation_length {first : JChar} {rest : List JChar}
    {found : Escape} (reads : lineContinuation first rest = some found) :
    found.value.length ≤ found.length := by
  rw [lineContinuation] at reads
  split_ifs at reads
  · obtain rfl := Option.some.inj reads
    simp
  · obtain rfl := Option.some.inj reads
    simp

/-- An escape sequence is at least as long as what it stands for. -/
theorem escape_length {text : List JChar} {found : Escape}
    (reads : escape text = some found) :
    found.value.length ≤ found.length := by
  cases text with
  | nil => exact absurd reads (by simp [escape])
  | cons first rest =>
      rw [escape] at reads
      cases continues : lineContinuation first rest with
      | some continued =>
          rw [continues] at reads
          exact Option.some.inj reads ▸ lineContinuation_length continues
      | none =>
          rw [continues] at reads
          simp only at reads
          split_ifs at reads
          · obtain rfl := Option.some.inj reads
            simp [octalEscape]
          · exact hexEscape_length reads
          · exact unicodeEscape_length reads
          · obtain rfl := Option.some.inj reads
            simp

/-- A literal is longer than its value by a quote at least, and by no more only
if it has no escape sequences. -/
theorem readBody_length {text value rest : List JChar}
    (reads : readBody text = some (value, rest)) :
    value.length + 1 + rest.length ≤ text.length ∧
      (value.length + 1 + rest.length = text.length →
        text = value ++ singleQuote :: rest ∧ Plain value) := by
  fun_induction readBody text generalizing value rest with
  | case1 => exact absurd reads (by simp)
  | case2 behind =>
      obtain ⟨rfl, rfl⟩ := Prod.mk.inj (Option.some.inj reads)
      simp only [List.length_nil, List.length_cons, Plain]
      constructor
      · omega
      · simp
  | case3 behind found isEscape notQuote inductionHypothesis =>
      obtain ⟨⟨more, behind⟩, readsMore, same⟩ :=
        Option.map_eq_some_iff.mp reads
      obtain ⟨rfl, rfl⟩ := Prod.mk.inj same
      have atMost := (inductionHypothesis readsMore).1
      have value := escape_length isEscape
      rw [List.length_drop] at atMost
      simp only [List.length_append, List.length_cons]
      constructor
      · omega
      · intro tight
        omega
  | case4 => exact absurd reads (by simp)
  | case5 => exact absurd reads (by simp)
  | case6 unit more notQuote notBackslash notLine inductionHypothesis =>
      obtain ⟨⟨read, behind⟩, readsMore, same⟩ :=
        Option.map_eq_some_iff.mp reads
      obtain ⟨rfl, rfl⟩ := Prod.mk.inj same
      obtain ⟨atMost, tightly⟩ := inductionHypothesis readsMore
      simp only [List.length_cons]
      constructor
      · omega
      · intro tight
        obtain ⟨split, plain⟩ := tightly (by omega)
        refine ⟨by rw [split]; rfl, ?_⟩
        rw [Plain, List.forall_mem_cons]
        push Not at notLine
        exact ⟨⟨notQuote, notBackslash, notLine⟩, plain⟩

/-- A plain text between quotes is the literal of itself. -/
theorem readBody_of_plain {value : List JChar} (plain : Plain value)
    (rest : List JChar) :
    readBody (value ++ singleQuote :: rest) = some (value, rest) := by
  induction value with
  | nil => simp [readBody]
  | cons unit more inductionHypothesis =>
      obtain ⟨⟨notQuote, notBackslash, notLine, notReturn⟩, plainMore⟩ :=
        List.forall_mem_cons.mp plain
      rw [List.cons_append, readBody, if_neg notQuote, if_neg notBackslash,
        if_neg (by simp [notLine, notReturn]), inductionHypothesis plainMore]
      rfl

end DripStone.Library.ScriptLiteral
