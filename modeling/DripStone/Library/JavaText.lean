import Mathlib

/-!
# Bytes, characters and single-byte charsets of Java

`byte` and `int` are two's complement, `char` is a UTF-16 code unit, and a
`String` is its list of code units.
-/

namespace DripStone.Library

abbrev JByte := BitVec 8

abbrev JChar := BitVec 16

abbrev JInt := BitVec 32

/-- The cast of a floating-point value to an `int`: towards zero, and to the
nearest `int`. -/
def castToInt (value : Rat) : Int :=
  max (-2 ^ 31) (min (if 0 ≤ value then ⌊value⌋ else ⌈value⌉) (2 ^ 31 - 1))

theorem le_castToInt {bound : Int} {value : Rat} (positive : 0 ≤ bound)
    (inRange : bound < 2 ^ 31) (le : (bound : Rat) ≤ value) :
    bound ≤ castToInt value := by
  have nonneg : 0 ≤ value := le_trans (by exact_mod_cast positive) le
  rw [castToInt, if_pos nonneg]
  refine le_max_of_le_right (le_min (Int.le_floor.mpr le) ?_)
  omega

/-- A Java string. -/
abbrev JString := List JChar

def literal (text : String) : JString :=
  text.toList.map fun letter => BitVec.ofNat 16 letter.toNat

/-- The units of a code point in UTF-16. -/
def unitsOf (codePoint : Nat) : List JChar :=
  if codePoint < 0x10000 then [BitVec.ofNat 16 codePoint]
  else
    [BitVec.ofNat 16 (0xD800 + (codePoint - 0x10000) / 0x400),
      BitVec.ofNat 16 (0xDC00 + (codePoint - 0x10000) % 0x400)]

/-- A text as a string. -/
def utf16 (text : List Char) : JString :=
  text.flatMap fun letter => unitsOf letter.toNat

/-- The exceptions of an array access. -/
inductive ArrayFailure where
  | arrayIndexOutOfBoundsException
deriving DecidableEq, Repr

/-- `array[index]`. -/
def arrayGet {α : Type} (array : List α) (index : JInt) :
    Except ArrayFailure α :=
  if index.toInt < 0 then
    .error .arrayIndexOutOfBoundsException
  else
    match array[index.toInt.toNat]? with
    | some value => .ok value
    | none => .error .arrayIndexOutOfBoundsException

/-! ## `String.getBytes` -/

/-- A charset that maps the code units below `limit` to themselves. -/
structure SingleByteCharset where
  limit : Nat

def usAscii : SingleByteCharset := ⟨0x80⟩

def iso88591 : SingleByteCharset := ⟨0x100⟩

namespace SingleByteCharset

def isHighSurrogate (unit : JChar) : Bool :=
  0xD800 ≤ unit.toNat && unit.toNat ≤ 0xDBFF

def isLowSurrogate (unit : JChar) : Bool :=
  0xDC00 ≤ unit.toNat && unit.toNat ≤ 0xDFFF

/-- The byte of one character; `'?'` replaces what the charset lacks. -/
def byteOf (charset : SingleByteCharset) (unit : JChar) : JByte :=
  if unit.toNat < charset.limit then unit.setWidth 8 else 63

/-- The bytes of a string.  A surrogate pair is one character. -/
def getBytes (charset : SingleByteCharset) : List JChar → List JByte
  | [] => []
  | [unit] => [charset.byteOf unit]
  | unit :: next :: rest =>
      if isHighSurrogate unit && isLowSurrogate next then
        63 :: charset.getBytes rest
      else
        charset.byteOf unit :: charset.getBytes (next :: rest)

variable {charset : SingleByteCharset}

theorem getBytes_cons_of_not_high {unit : JChar}
    (notHigh : isHighSurrogate unit = false) (rest : List JChar) :
    charset.getBytes (unit :: rest) =
      charset.byteOf unit :: charset.getBytes rest := by
  cases rest with
  | nil => rfl
  | cons next rest => simp [getBytes, notHigh]

theorem isHighSurrogate_of_lt {unit : JChar} (small : unit.toNat < 0xD800) :
    isHighSurrogate unit = false := by
  simp [isHighSurrogate]
  omega

/-- A string within the charset is encoded unit by unit. -/
theorem getBytes_of_small {units : List JChar}
    (small : ∀ unit ∈ units, unit.toNat < 0xD800) :
    charset.getBytes units = units.map charset.byteOf := by
  induction units with
  | nil => rfl
  | cons unit rest inductionHypothesis =>
      have here := small unit List.mem_cons_self
      rw [getBytes_cons_of_not_high (isHighSurrogate_of_lt here),
        inductionHypothesis fun other inRest =>
          small other (List.mem_cons_of_mem unit inRest)]
      rfl

end SingleByteCharset

/-! ## Surrogates -/

/-- A letter is one unit that is no surrogate, or a pair of surrogates. -/
theorem unitsOf_letter (letter : Char) :
    (∃ unit, unitsOf letter.toNat = [unit] ∧ letter.toNat < 0x10000 ∧
        unit.toNat = letter.toNat ∧
          (unit.toNat < 0xD800 ∨ 0xDFFF < unit.toNat)) ∨
      ∃ high low, unitsOf letter.toNat = [high, low] ∧
        0x10000 ≤ letter.toNat ∧
        (0xD800 ≤ high.toNat ∧ high.toNat ≤ 0xDBFF) ∧
        (0xDC00 ≤ low.toNat ∧ low.toNat ≤ 0xDFFF) ∧
        letter.toNat =
          0x10000 + (high.toNat - 0xD800) * 0x400 + (low.toNat - 0xDC00) := by
  have valid : letter.toNat < 0xD800 ∨
      0xDFFF < letter.toNat ∧ letter.toNat < 0x110000 := letter.valid
  rw [unitsOf]
  by_cases basic : letter.toNat < 0x10000
  · refine Or.inl ⟨BitVec.ofNat 16 letter.toNat, if_pos basic, basic, ?_⟩
    rw [BitVec.toNat_ofNat]
    omega
  · refine Or.inr ⟨BitVec.ofNat 16 (0xD800 + (letter.toNat - 0x10000) / 0x400),
      BitVec.ofNat 16 (0xDC00 + (letter.toNat - 0x10000) % 0x400),
      if_neg basic, by omega, ?_⟩
    rw [BitVec.toNat_ofNat, BitVec.toNat_ofNat]
    omega

theorem utf16_cons (letter : Char) (text : List Char) :
    utf16 (letter :: text) = unitsOf letter.toNat ++ utf16 text :=
  List.flatMap_cons

/-- No text begins with the second half of a pair. -/
theorem utf16_ne_low_cons {low : JChar} (isLow : 0xDC00 ≤ low.toNat)
    (notAbove : low.toNat ≤ 0xDFFF) (text : List Char) (rest : JString) :
    utf16 text ≠ low :: rest := by
  intro same
  cases text with
  | nil => cases same
  | cons letter text =>
      rw [utf16_cons] at same
      rcases unitsOf_letter letter with
        ⟨unit, units, _, _, noSurrogate⟩ | ⟨high, _, units, _, isHigh, _⟩
      · rw [units] at same
        rw [(List.cons.inj same).1] at noSurrogate
        omega
      · rw [units] at same
        rw [(List.cons.inj same).1] at isHigh
        omega

theorem utf16_cons_ne_nil (letter : Char) (text : List Char) :
    utf16 (letter :: text) ≠ [] := by
  rw [utf16_cons]
  rcases unitsOf_letter letter with ⟨_, units, _⟩ | ⟨_, _, units, _⟩
  · rw [units]
    exact List.cons_ne_nil _ _
  · rw [units]
    exact List.cons_ne_nil _ _

/-- The first letter is read off its units. -/
theorem unitsOf_append_inj {letter other : Char} {units behind : JString}
    (same : unitsOf letter.toNat ++ units = unitsOf other.toNat ++ behind) :
    letter = other ∧ units = behind := by
  rcases unitsOf_letter letter with
    ⟨unit, isUnit, _, value, noSurrogate⟩ |
      ⟨high, low, isPair, _, isHigh, isLow, value⟩
  · rcases unitsOf_letter other with
      ⟨unit', isUnit', _, value', _⟩ | ⟨high', _, isPair', _, isHigh', _⟩
    · rw [isUnit, isUnit'] at same
      obtain ⟨sameUnit, rest⟩ := List.cons.inj same
      rw [sameUnit] at value
      exact ⟨Char.toNat_inj.mp (value.symm.trans value'), rest⟩
    · rw [isUnit, isPair'] at same
      rw [(List.cons.inj same).1] at noSurrogate
      omega
  · rcases unitsOf_letter other with
      ⟨unit', isUnit', _, _, noSurrogate'⟩ |
        ⟨high', low', isPair', _, _, _, value'⟩
    · rw [isPair, isUnit'] at same
      rw [(List.cons.inj same).1] at isHigh
      omega
    · rw [isPair, isPair'] at same
      obtain ⟨sameHigh, behindHigh⟩ := List.cons.inj same
      obtain ⟨sameLow, rest⟩ := List.cons.inj behindHigh
      rw [sameHigh, sameLow] at value
      exact ⟨Char.toNat_inj.mp (value.trans value'.symm), rest⟩

theorem utf16_injective : Function.Injective utf16 := by
  intro text other same
  induction text generalizing other with
  | nil =>
      cases other with
      | nil => rfl
      | cons letter other => exact absurd same.symm (utf16_cons_ne_nil _ _)
  | cons letter text inductionHypothesis =>
      cases other with
      | nil => exact absurd same (utf16_cons_ne_nil _ _)
      | cons next other =>
          rw [utf16_cons, utf16_cons] at same
          obtain ⟨sameLetter, rest⟩ := unitsOf_append_inj same
          rw [sameLetter, inductionHypothesis rest]

/-- Behind the first unit of a text stand the units of another one exactly
when its first letter has one unit. -/
theorem utf16_eq_cons_iff {text rest : List Char} {unit : JChar} :
    utf16 text = unit :: utf16 rest ↔
      ∃ letter, text = letter :: rest ∧ unitsOf letter.toNat = [unit] := by
  constructor
  · intro isText
    cases text with
    | nil => cases isText
    | cons letter text =>
        rw [utf16_cons] at isText
        rcases unitsOf_letter letter with
          ⟨_, units, _⟩ | ⟨_, low, units, _, _, isLow, _⟩
        · rw [units] at isText
          obtain ⟨sameUnit, sameRest⟩ := List.cons.inj isText
          rw [utf16_injective sameRest]
          exact ⟨letter, rfl, units.trans (by rw [sameUnit])⟩
        · rw [units] at isText
          have behind := (List.cons.inj isText).2
          exact absurd behind.symm
            (utf16_ne_low_cons isLow.1 isLow.2 rest _)
  · rintro ⟨letter, rfl, units⟩
    rw [utf16_cons, units]
    rfl

end DripStone.Library
