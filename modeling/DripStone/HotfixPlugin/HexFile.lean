import DripStone.Library.Paths

/-!
# The file of hashes

`HotfixUtils` keeps the hash of each class from one build to the next in lines
of text, with a colon between the name of the class and its hash.
-/

namespace DripStone.HotfixPlugin

open DripStone.Library

/-- `Map<String, String>`; the order of its keys is not fixed. -/
abbrev Hexs := List (Text × Text)

namespace Hexs

def get (hexs : Hexs) (className : Text) : Option Text :=
  hexs.lookup className

def put (hexs : Hexs) (className hex : Text) : Hexs :=
  (className, hex) :: hexs.filter (·.1 ≠ className)

theorem get_put (hexs : Hexs) (className hex other : Text) :
    (hexs.put className hex).get other =
      if other = className then some hex else hexs.get other := by
  rw [get, put, List.lookup_cons]
  by_cases same : other = className
  · simp [same]
  · rw [if_neg same, beq_false_of_ne same]
    induction hexs with
    | nil => rfl
    | cons entry rest inductionHypothesis =>
        by_cases isKept : entry.1 = className
        · rw [List.filter_cons_of_neg (by simpa using isKept), get,
            List.lookup_cons, beq_false_of_ne (isKept ▸ same)]
          exact inductionHypothesis
        · rw [List.filter_cons_of_pos (by simpa using isKept),
            List.lookup_cons, get, List.lookup_cons]
          cases other == entry.1 with
          | true => rfl
          | false => exact inductionHypothesis

theorem mem_put {hexs : Hexs} {className hex : Text} {entry : Text × Text}
    (isEntry : entry ∈ hexs.put className hex) :
    entry = (className, hex) ∨ entry ∈ hexs := by
  rcases List.mem_cons.mp isEntry with isNew | isOld
  · exact Or.inl isNew
  · exact Or.inr (List.mem_of_mem_filter isOld)

theorem nodup_put {hexs : Hexs} {className hex : Text}
    (distinct : (hexs.map Prod.fst).Nodup) :
    ((hexs.put className hex).map Prod.fst).Nodup := by
  refine List.nodup_cons.mpr ⟨fun isThere => ?_, ?_⟩
  · obtain ⟨entry, isKept, isName⟩ := List.mem_map.mp isThere
    exact of_decide_eq_true (List.mem_filter.mp isKept).2 isName
  · exact distinct.sublist (List.filter_sublist.map Prod.fst)

end Hexs

/-- The order in which a `HashMap` has its keys. -/
structure KeyOrder where
  arrange : Hexs → Hexs
  perm : ∀ hexs, (arrange hexs).Perm hexs

/-- The last key that was put comes first. -/
def KeyOrder.lastFirst : KeyOrder :=
  ⟨id, List.Perm.refl⟩

/-! ## `writeHex` and `readHex` -/

def hexLine (entry : Text × Text) : Text :=
  entry.1 ++ ':' :: entry.2 ++ ['\n']

/-- `writeHex`: what the file holds then. -/
def writeHex (order : KeyOrder) (hexs : Hexs) : Text :=
  (order.arrange hexs).flatMap hexLine

/-- The lines of a `BufferedReader`, behind what was read of one. -/
def linesFrom (line : Text) : Text → List Text
  | [] => if line = [] then [] else [line]
  | '\n' :: rest => line :: linesFrom [] rest
  | '\r' :: '\n' :: rest => line :: linesFrom [] rest
  | '\r' :: rest => line :: linesFrom [] rest
  | letter :: rest => linesFrom (line ++ [letter]) rest

def readLines (text : Text) : List Text :=
  linesFrom [] text

/-- `line.split(":")`, as far as its length is two. -/
def splitLine (line : Text) : List Text :=
  (line.splitOn ':').rdropWhile (· = [])

/-- The body of the loop; other lines are passed over. -/
def readLine (hexs : Hexs) (line : Text) : Hexs :=
  match splitLine line with
  | [className, hex] => hexs.put className hex
  | _ => hexs

def readHex (hexFile : Text) : Hexs :=
  (readLines hexFile).foldl readLine []

/-! ## Reading back -/

/-- A text that a line of the file gives back. -/
def PlainText (text : Text) : Prop :=
  ':' ∉ text ∧ '\n' ∉ text ∧ '\r' ∉ text

/-- A class and a hash that are read back. -/
def PlainEntry (entry : Text × Text) : Prop :=
  PlainText entry.1 ∧ PlainText entry.2 ∧ entry.2 ≠ []

theorem linesFrom_append {text rest : Text} (line : Text)
    (unbroken : '\n' ∉ text ∧ '\r' ∉ text) :
    linesFrom line (text ++ '\n' :: rest) =
      (line ++ text) :: linesFrom [] rest := by
  induction text generalizing line with
  | nil => simp [linesFrom]
  | cons letter text inductionHypothesis =>
      simp only [List.mem_cons, not_or] at unbroken
      rw [List.cons_append, linesFrom,
        inductionHypothesis _ ⟨unbroken.1.2, unbroken.2.2⟩]
      · simp
      · exact fun isBreak => unbroken.1.1 isBreak.symm
      · exact fun _ isReturn _ => unbroken.2.1 isReturn.symm
      · exact fun isReturn => unbroken.2.1 isReturn.symm

theorem splitLine_plain {entry : Text × Text} (plain : PlainEntry entry) :
    splitLine (entry.1 ++ ':' :: entry.2) = [entry.1, entry.2] := by
  obtain ⟨plainName, plainHex, some⟩ := plain
  rw [splitLine, List.splitOn_append_cons_self,
    List.splitOn_eq_singleton plainName.1,
    List.splitOn_eq_singleton plainHex.1]
  exact List.rdropWhile_concat_neg (· = []) [entry.1] entry.2 (by simpa)

/-- Lines of plain entries are read one after the other. -/
theorem readHex_lines {entries : Hexs}
    (plain : ∀ entry ∈ entries, PlainEntry entry) (hexs : Hexs) :
    (readLines (entries.flatMap hexLine)).foldl readLine hexs =
      entries.foldl (fun hexs entry => hexs.put entry.1 entry.2) hexs := by
  induction entries generalizing hexs with
  | nil => rfl
  | cons entry rest inductionHypothesis =>
      have here := plain entry List.mem_cons_self
      have unbroken : '\n' ∉ entry.1 ++ ':' :: entry.2 ∧
          '\r' ∉ entry.1 ++ ':' :: entry.2 := by
        obtain ⟨plainName, plainHex, _⟩ := here
        simp [plainName.2.1, plainName.2.2, plainHex.2.1, plainHex.2.2]
      rw [List.flatMap_cons, hexLine, List.append_assoc, readLines,
        List.singleton_append, linesFrom_append [] unbroken, List.nil_append,
        List.foldl_cons, List.foldl_cons, readLine, splitLine_plain here]
      exact inductionHypothesis
        (fun other inRest => plain other (List.mem_cons_of_mem _ inRest)) _

theorem get_foldl_put {entries hexs : Hexs} {className : Text}
    (distinct : (entries.map Prod.fst).Nodup) :
    Hexs.get (entries.foldl (fun hexs entry =>
        Hexs.put hexs entry.1 entry.2) hexs) className =
      (Hexs.get entries className).or (Hexs.get hexs className) := by
  induction entries generalizing hexs with
  | nil => rfl
  | cons entry rest inductionHypothesis =>
      obtain ⟨notInRest, distinctRest⟩ := List.nodup_cons.mp distinct
      rw [List.foldl_cons, inductionHypothesis distinctRest, Hexs.get_put]
      by_cases same : className = entry.1
      · have absent : Hexs.get rest className = none := by
          rw [Hexs.get, List.lookup_eq_none_iff]
          intro other inRest
          rw [same, bne_iff_ne]
          rintro isName
          exact notInRest (isName ▸ List.mem_map_of_mem inRest)
        rw [absent, if_pos same, Hexs.get, List.lookup_cons, same]
        simp
      · rw [if_neg same]
        conv => rhs; rw [Hexs.get, List.lookup_cons, beq_false_of_ne same]
        rfl

theorem mem_foldl_put {entries hexs : Hexs} {entry : Text × Text}
    (isEntry : entry ∈ entries.foldl (fun hexs entry =>
      hexs.put entry.1 entry.2) hexs) :
    entry ∈ entries ∨ entry ∈ hexs := by
  induction entries generalizing hexs with
  | nil => exact Or.inr isEntry
  | cons first rest inductionHypothesis =>
      rcases inductionHypothesis isEntry with inRest | before
      · exact Or.inl (List.mem_cons_of_mem _ inRest)
      · rcases Hexs.mem_put before with isFirst | earlier
        · exact Or.inl (isFirst ▸ List.mem_cons_self)
        · exact Or.inr earlier

theorem nodup_foldl_put {entries hexs : Hexs}
    (distinct : (hexs.map Prod.fst).Nodup) :
    ((entries.foldl (fun hexs entry =>
      hexs.put entry.1 entry.2) hexs).map Prod.fst).Nodup := by
  induction entries generalizing hexs with
  | nil => exact distinct
  | cons first rest inductionHypothesis =>
      exact inductionHypothesis (Hexs.nodup_put distinct)

theorem Hexs.get_eq_some_iff {hexs : Hexs} {className hex : Text}
    (distinct : (hexs.map Prod.fst).Nodup) :
    hexs.get className = some hex ↔ (className, hex) ∈ hexs := by
  induction hexs with
  | nil => simp [Hexs.get]
  | cons entry rest inductionHypothesis =>
      obtain ⟨notInRest, distinctRest⟩ := List.nodup_cons.mp distinct
      rw [Hexs.get, List.lookup_cons, List.mem_cons]
      by_cases same : className = entry.1
      · have absent : (className, hex) ∉ rest := fun inRest =>
          notInRest (same ▸ List.mem_map_of_mem inRest)
        rw [or_iff_left absent, same]
        simp [Prod.ext_iff, eq_comm]
      · rw [beq_false_of_ne same]
        have other : (className, hex) ≠ entry := fun isEntry =>
          same (congrArg Prod.fst isEntry)
        rw [or_iff_right other]
        exact inductionHypothesis distinctRest

/-- What is written of plain entries is read back. -/
theorem get_readHex_writeHex (order : KeyOrder) {hexs : Hexs}
    (plain : ∀ entry ∈ hexs, PlainEntry entry)
    (distinct : (hexs.map Prod.fst).Nodup) (className : Text) :
    (readHex (writeHex order hexs)).get className = hexs.get className := by
  have arranged := order.perm hexs
  rw [readHex, writeHex, readHex_lines
    (fun entry inOrder => plain entry (arranged.mem_iff.mp inOrder)),
    get_foldl_put ((arranged.map Prod.fst).nodup_iff.mpr distinct)]
  rw [show Hexs.get [] className = none from rfl, Option.or_none]
  refine Option.ext fun hex => ?_
  rw [Hexs.get_eq_some_iff ((arranged.map Prod.fst).nodup_iff.mpr distinct),
    Hexs.get_eq_some_iff distinct, arranged.mem_iff]

/-! ## Names of other letters -/

def isBreak (letter : Char) : Bool :=
  letter = '\n' || letter = '\r'

/-- The part of a name that comes to stand in front of its hash. -/
def lastLine (className : Text) : Text :=
  className.rtakeWhile fun letter => !isBreak letter

/-- The lines in front of it. -/
def earlierLines (className : Text) : List Text :=
  readLines (className.rdropWhile fun letter => !isBreak letter)

/-- No pair is read of the lines that a name makes. -/
def Unread (className : Text) : Prop :=
  ':' ∈ lastLine className ∧
    ∀ line ∈ earlierLines className, (splitLine line).length ≠ 2

theorem linesFrom_cons_break {rest : Text} (line : Text) {letter : Char}
    (isEnd : letter = '\n' ∨ letter = '\r' ∧ rest.head? ≠ some '\n') :
    linesFrom line (letter :: rest) = line :: linesFrom [] rest := by
  rcases isEnd with rfl | ⟨rfl, notNext⟩
  · rw [linesFrom]
  · cases rest with
    | nil => rfl
    | cons next rest =>
        rw [linesFrom]
        rintro rest' same
        exact notNext (by rw [same]; rfl)

/-- The lines behind a break are read on their own. -/
theorem linesFrom_break {text rest : Text} (line : Text) {letter : Char}
    (isEnd : letter = '\n' ∨ letter = '\r' ∧ rest.head? ≠ some '\n') :
    linesFrom line (text ++ letter :: rest) =
      linesFrom line (text ++ [letter]) ++ linesFrom [] rest := by
  have alone : letter = '\n' ∨ letter = '\r' ∧ [].head? ≠ some '\n' :=
    isEnd.imp_right fun isReturn => ⟨isReturn.1, nofun⟩
  have ended (line : Text) : linesFrom line ([] ++ letter :: rest) =
      linesFrom line ([] ++ [letter]) ++ linesFrom [] rest := by
    rw [List.nil_append, List.nil_append, linesFrom_cons_break line isEnd,
      linesFrom_cons_break line alone]
    rfl
  induction line, text using linesFrom.induct with
  | case1 => exact ended []
  | case2 line => exact ended line
  | case3 line text inductionHypothesis =>
      exact congrArg (line :: ·) inductionHypothesis
  | case4 line text inductionHypothesis =>
      exact congrArg (line :: ·) inductionHypothesis
  | case5 line text other inductionHypothesis =>
      -- the text is one return, and the break may belong to it
      cases text with
      | nil =>
          rcases isEnd with rfl | isReturn
          · rfl
          · rw [List.nil_append] at inductionHypothesis
            rw [isReturn.1] at inductionHypothesis ⊢
            exact congrArg (line :: ·) inductionHypothesis
      | cons next text =>
          have notNext (behind : Text) :
              (next :: text ++ behind).head? ≠ some '\n' := fun same =>
            other text (congrArg (· :: text) (Option.some.inj same))
          refine (linesFrom_cons_break line
            (Or.inr ⟨rfl, notNext (letter :: rest)⟩)).trans ?_
          rw [inductionHypothesis]
          exact congrArg (· ++ linesFrom [] rest) (linesFrom_cons_break line
            (Or.inr ⟨rfl, notNext [letter]⟩)).symm
  | case6 line next text notNewline notPair notReturn inductionHypothesis =>
      have goesOn (behind : Text) : linesFrom line (next :: behind) =
          linesFrom (line ++ [next]) behind := by
        rw [linesFrom]
        · exact notNewline
        · exact fun _ isReturn _ => notReturn isReturn
        · exact notReturn
      rw [List.cons_append, goesOn, inductionHypothesis, List.cons_append,
        goesOn]

theorem not_break_of_mem_lastLine {className : Text} {letter : Char}
    (isLetter : letter ∈ lastLine className) :
    letter ≠ '\n' ∧ letter ≠ '\r' := by
  have kept := List.mem_rtakeWhile_imp isLetter
  simpa [isBreak] using kept

/-- The letter in front of the last line of a name is a break, whatever stands
behind that line. -/
theorem break_of_earlier {className front : Text} {letter : Char}
    (isFront : className.rdropWhile (fun letter => !isBreak letter) =
      front ++ [letter]) (hex : Text) :
    letter = '\n' ∨ letter = '\r' ∧
      (lastLine className ++ ':' :: hex).head? ≠ some '\n' := by
  have isBreak : isBreak letter = true := by
    have last := List.rdropWhile_last_not (fun letter => !isBreak letter)
      className (by rw [isFront]; simp)
    simpa [isFront] using last
  rw [HotfixPlugin.isBreak, Bool.or_eq_true, decide_eq_true_eq,
    decide_eq_true_eq] at isBreak
  refine isBreak.imp_right fun isReturn => ⟨isReturn, fun isNext => ?_⟩
  cases isLast : lastLine className with
  | nil => simp [isLast] at isNext
  | cons next text =>
      have isLetter : next ∈ lastLine className := by
        rw [isLast]
        exact List.mem_cons_self
      rw [isLast] at isNext
      exact (not_break_of_mem_lastLine isLetter).1 (Option.some.inj isNext)

/-- The lines of an entry, and then those of the others. -/
theorem readLines_hexLine {entry : Text × Text} (plainHex : PlainText entry.2)
    (rest : Text) :
    readLines (hexLine entry ++ rest) =
      earlierLines entry.1 ++
        (lastLine entry.1 ++ ':' :: entry.2) :: readLines rest := by
  obtain ⟨className, hex⟩ := entry
  have notBreak {letter : Char} (isLetter : letter ∈ lastLine className) :=
    not_break_of_mem_lastLine isLetter
  have unbroken : '\n' ∉ lastLine className ++ ':' :: hex ∧
      '\r' ∉ lastLine className ++ ':' :: hex := by
    simp only [List.mem_append, List.mem_cons, not_or]
    exact ⟨⟨fun isIn => (notBreak isIn).1 rfl, by decide, plainHex.2.1⟩,
      fun isIn => (notBreak isIn).2 rfl, by decide, plainHex.2.2⟩
  have behind : readLines (lastLine className ++ ':' :: hex ++ '\n' :: rest) =
      (lastLine className ++ ':' :: hex) :: readLines rest :=
    linesFrom_append [] unbroken
  have parts : className.rdropWhile (fun letter => !isBreak letter) ++
      lastLine className = className := List.rdropWhile_append_rtakeWhile
  have whole : hexLine (className, hex) ++ rest =
      className.rdropWhile (fun letter => !isBreak letter) ++
        (lastLine className ++ ':' :: hex ++ '\n' :: rest) := by
    rw [← List.append_assoc, ← List.append_assoc, parts, hexLine,
      List.append_assoc _ ['\n']]
    rfl
  rw [whole, earlierLines]
  rcases List.eq_nil_or_concat
    (className.rdropWhile fun letter => !isBreak letter) with
    none | ⟨front, letter, isFront⟩
  · rw [none]
    exact behind
  · rw [List.concat_eq_append] at isFront
    have isEnd := break_of_earlier isFront (hex ++ '\n' :: rest)
    rw [← List.cons_append, ← List.append_assoc] at isEnd
    rw [isFront, List.append_assoc, List.singleton_append, readLines,
      linesFrom_break [] isEnd]
    exact congrArg (_ ++ ·) behind

/-- The line with the hash is passed over when there is another colon. -/
theorem length_splitLine {line hex : Text} (plainHex : PlainText hex)
    (notEmpty : hex ≠ []) :
    (splitLine (line ++ ':' :: hex)).length ≠ 2 ↔ ':' ∈ line := by
  have two : splitLine (line ++ ':' :: hex) =
      line.splitOn ':' ++ [hex] := by
    rw [splitLine, List.splitOn_append_cons_self,
      List.splitOn_eq_singleton plainHex.1]
    exact List.rdropWhile_concat_neg (· = []) _ hex (by simpa)
  rw [two, List.length_append, List.length_singleton]
  constructor
  · intro longer
    by_contra notIn
    rw [List.splitOn_eq_singleton notIn] at longer
    exact longer rfl
  · intro isIn
    obtain ⟨left, right, rfl⟩ := List.append_of_mem isIn
    have someLeft := List.length_pos_of_ne_nil
      (List.splitOn_ne_nil ':' left)
    have someRight := List.length_pos_of_ne_nil
      (List.splitOn_ne_nil ':' right)
    rw [List.splitOn_append_cons_self, List.length_append]
    omega

theorem readLine_eq_nil {hexs : Hexs} {line : Text} :
    readLine hexs line = [] ↔ hexs = [] ∧ (splitLine line).length ≠ 2 := by
  rw [readLine]
  split
  · next isPair =>
      rw [isPair]
      simp [Hexs.put]
  · next notPair =>
      refine (and_iff_left fun two => ?_).symm
      obtain ⟨className, hex, isPair⟩ := List.length_eq_two.mp two
      exact notPair className hex isPair

theorem foldl_readLine_eq_nil {lines : List Text} :
    lines.foldl readLine [] = [] ↔
      ∀ line ∈ lines, (splitLine line).length ≠ 2 := by
  induction lines using List.reverseRecOn with
  | nil => simp
  | append_singleton lines line inductionHypothesis =>
      rw [List.foldl_append, List.foldl_cons, List.foldl_nil,
        readLine_eq_nil, inductionHypothesis, List.forall_mem_append,
        List.forall_mem_singleton]

theorem readLines_flatMap {entries : Hexs}
    (plainHex : ∀ entry ∈ entries, PlainText entry.2) :
    readLines (entries.flatMap hexLine) =
      entries.flatMap fun entry => earlierLines entry.1 ++
        [lastLine entry.1 ++ ':' :: entry.2] := by
  induction entries with
  | nil => rfl
  | cons entry rest inductionHypothesis =>
      obtain ⟨here, behind⟩ := List.forall_mem_cons.mp plainHex
      rw [List.flatMap_cons, readLines_hexLine here,
        inductionHypothesis behind, List.flatMap_cons, List.append_assoc]
      rfl

/-- Nothing is read of a file exactly when nothing is of any name. -/
theorem readHex_eq_nil (order : KeyOrder) {hexs : Hexs}
    (plainHex : ∀ entry ∈ hexs, PlainText entry.2 ∧ entry.2 ≠ []) :
    readHex (writeHex order hexs) = [] ↔ ∀ entry ∈ hexs, Unread entry.1 := by
  have arranged := order.perm hexs
  have plainOrdered : ∀ entry ∈ order.arrange hexs,
      PlainText entry.2 ∧ entry.2 ≠ [] :=
    fun entry inOrder => plainHex entry (arranged.mem_iff.mp inOrder)
  rw [readHex, writeHex, readLines_flatMap fun entry inOrder =>
    (plainOrdered entry inOrder).1, foldl_readLine_eq_nil]
  simp only [List.mem_flatMap, List.mem_append, List.mem_singleton]
  constructor
  · intro noPair entry isEntry
    have inOrder := arranged.mem_iff.mpr isEntry
    obtain ⟨plain, notEmpty⟩ := plainHex entry isEntry
    refine ⟨(length_splitLine plain notEmpty).mp
      (noPair _ ⟨entry, inOrder, Or.inr rfl⟩), fun line isLine => ?_⟩
    exact noPair line ⟨entry, inOrder, Or.inl isLine⟩
  · rintro unread line ⟨entry, inOrder, isEarlier | rfl⟩
    · exact (unread entry (arranged.mem_iff.mp inOrder)).2 line isEarlier
    · obtain ⟨plain, notEmpty⟩ := plainOrdered entry inOrder
      exact (length_splitLine plain notEmpty).mpr
        (unread entry (arranged.mem_iff.mp inOrder)).1

/-! ## The names that are read -/

theorem unbroken_of_mem_linesFrom {line text other : Text}
    (unbroken : '\n' ∉ line ∧ '\r' ∉ line)
    (isLine : other ∈ linesFrom line text) :
    '\n' ∉ other ∧ '\r' ∉ other := by
  have empty : '\n' ∉ ([] : Text) ∧ '\r' ∉ ([] : Text) := by simp
  induction line, text using linesFrom.induct with
  | case1 => cases isLine
  | case2 line notEmpty =>
      rw [linesFrom, if_neg notEmpty, List.mem_singleton] at isLine
      exact isLine ▸ unbroken
  | case3 line text inductionHypothesis =>
      rcases List.mem_cons.mp isLine with rfl | isLater
      · exact unbroken
      · exact inductionHypothesis empty isLater
  | case4 line text inductionHypothesis =>
      rcases List.mem_cons.mp isLine with rfl | isLater
      · exact unbroken
      · exact inductionHypothesis empty isLater
  | case5 line text other inductionHypothesis =>
      rw [linesFrom] at isLine
      · rcases List.mem_cons.mp isLine with rfl | isLater
        · exact unbroken
        · exact inductionHypothesis empty isLater
      · exact other
  | case6 line next text notNewline notPair notReturn inductionHypothesis =>
      rw [linesFrom] at isLine
      · refine inductionHypothesis ?_ isLine
        simp only [List.mem_append, List.mem_singleton, not_or]
        exact ⟨⟨unbroken.1, fun same => notNewline same.symm⟩, unbroken.2,
          fun same => notReturn same.symm⟩
      · exact notNewline
      · exact fun _ isReturn _ => notReturn isReturn
      · exact notReturn

/-- What stands first in a line is free of colons. -/
theorem plain_of_splitLine {line className : Text} {rest : List Text}
    (unbroken : '\n' ∉ line ∧ '\r' ∉ line)
    (isFirst : splitLine line = className :: rest) : PlainText className := by
  obtain ⟨others, isSplit⟩ :=
    List.rdropWhile_prefix (· = []) (line.splitOn ':')
  rw [splitLine] at isFirst
  rw [isFirst, List.cons_append] at isSplit
  by_cases isIn : ':' ∈ line
  · obtain ⟨left, right, rfl, notIn⟩ := List.eq_append_cons_of_mem isIn
    rw [List.splitOn_append_cons_self, List.splitOn_eq_singleton notIn,
      List.singleton_append] at isSplit
    rw [(List.cons.inj isSplit).1]
    simp only [List.mem_append, not_or] at unbroken
    exact ⟨notIn, unbroken.1.1, unbroken.2.1⟩
  · rw [List.splitOn_eq_singleton isIn] at isSplit
    rw [(List.cons.inj isSplit).1]
    exact ⟨isIn, unbroken⟩

/-- Every name that is read is a plain one. -/
theorem plain_of_mem_readHex {hexFile : Text} {entry : Text × Text}
    (isEntry : entry ∈ readHex hexFile) : PlainText entry.1 := by
  have ofLines {lines : List Text} {hexs : Hexs}
      (unbroken : ∀ line ∈ lines, '\n' ∉ line ∧ '\r' ∉ line)
      (plain : ∀ entry ∈ hexs, PlainText entry.1) :
      ∀ entry ∈ lines.foldl readLine hexs, PlainText entry.1 := by
    induction lines generalizing hexs with
    | nil => exact plain
    | cons line rest inductionHypothesis =>
        obtain ⟨here, behind⟩ := List.forall_mem_cons.mp unbroken
        refine inductionHypothesis behind fun entry isRead => ?_
        rw [readLine] at isRead
        split at isRead
        · next className hex isPair =>
            rcases Hexs.mem_put isRead with rfl | before
            · exact plain_of_splitLine here isPair
            · exact plain entry before
        · exact plain entry isRead
  exact ofLines (fun line isLine =>
    unbroken_of_mem_linesFrom (by simp) isLine) (List.forall_mem_nil _) entry
      isEntry

theorem Hexs.mem_of_get {hexs : Hexs} {className hex : Text}
    (isHex : hexs.get className = some hex) : (className, hex) ∈ hexs := by
  induction hexs with
  | nil => cases isHex
  | cons entry rest inductionHypothesis =>
      rw [Hexs.get, List.lookup_cons] at isHex
      cases same : className == entry.1 with
      | true =>
          rw [same] at isHex
          rw [eq_of_beq same, ← Option.some.inj isHex]
          exact List.mem_cons_self
      | false =>
          rw [same] at isHex
          exact List.mem_cons_of_mem _ (inductionHypothesis isHex)

end DripStone.HotfixPlugin
