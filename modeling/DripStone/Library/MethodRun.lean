import Mathlib

/-!
# Runs of a method body with exception handlers

A method body is a list of labels and instructions.  What an instruction does
to the frame is a parameter, and need not be determined: a call may return any
value or throw any exception.  A position is the pair of the items before it
and the items behind it, so the exception table is read off the labels passed
so far, and a jump goes to the first item with its label.
-/

namespace DripStone.Library

/-- Operand stack and local variables. -/
structure Frame (V : Type) where
  stack : List V
  locals : Nat → V

/-- What an instruction leads to. -/
inductive Outcome (V : Type) where
  | next (frame : Frame V)
  | jump (label : Nat) (frame : Frame V)
  | leave
  | throw (exception : V)

inductive Item (Instr : Type) where
  | label (id : Nat)
  | instr (instr : Instr)

/-- An entry of the exception table; no type catches everything. -/
structure TryCatchBlock where
  start : Nat
  stop : Nat
  handler : Nat
  type : Option String
deriving DecidableEq, Repr

/-- What the instructions do and emit, and which types catch a value. -/
structure Machine (Instr Event V : Type) where
  effect : Instr → Frame V → List Event → Outcome V → Prop
  catches : Option String → V → Bool

inductive Config (Instr V : Type) where
  | running (before after : List (Item Instr)) (frame : Frame V)
  | left (exception : Option V)

/-! ## Labels -/

section Labels

variable {Instr : Type}

def labels (items : List (Item Instr)) : List Nat :=
  items.filterMap fun
    | .label id => some id
    | .instr _ => none

@[simp]
theorem labels_append (left right : List (Item Instr)) :
    labels (left ++ right) = labels left ++ labels right :=
  List.filterMap_append

@[simp]
theorem labels_map_instr (instrs : List Instr) :
    labels (instrs.map Item.instr) = [] := by
  simp [labels]

@[simp]
theorem labels_nil : labels ([] : List (Item Instr)) = [] := rfl

@[simp]
theorem labels_label (id : Nat) :
    labels [(.label id : Item Instr)] = [id] := rfl

@[simp]
theorem labels_instr (instr : Instr) : labels [.instr instr] = [] := rfl

def Item.isLabel (id : Nat) : Item Instr → Bool
  | .label other => other = id
  | .instr _ => false

/-- The table entry covers the position behind these items. -/
def TryCatchBlock.covers (block : TryCatchBlock)
    (before : List (Item Instr)) : Bool :=
  (labels before).contains block.start && !(labels before).contains block.stop

end Labels

/-! ## Runs -/

section Runs

variable {Instr Event V : Type} (machine : Machine Instr Event V)
  (code : List (Item Instr)) (table : List TryCatchBlock)

def jumpTo (code : List (Item Instr)) (label : Nat) (frame : Frame V) :
    Config Instr V :=
  .running (code.takeWhile fun item => !item.isLabel label)
    (code.dropWhile fun item => !item.isLabel label) frame

/-- The first entry that covers the position and catches the exception gets
control, with the exception alone on the stack. -/
def unwind (before : List (Item Instr)) (locals : Nat → V) (exception : V) :
    Config Instr V :=
  match table.find? (fun block =>
      block.covers before && machine.catches block.type exception) with
  | some block => jumpTo code block.handler ⟨[exception], locals⟩
  | none => .left (some exception)

/-- The configuration behind an instruction. -/
def proceed (before : List (Item Instr)) (instr : Instr)
    (after : List (Item Instr)) (locals : Nat → V) :
    Outcome V → Config Instr V
  | .next frame => .running (before ++ [.instr instr]) after frame
  | .jump label frame => jumpTo code label frame
  | .leave => .left none
  | .throw exception => unwind machine code table before locals exception

/-- In so many steps the method is left, with these events and this
exception. -/
inductive Leaves : Nat → Config Instr V → List Event → Option V → Prop where
  | left (exception : Option V) :
      Leaves 0 (.left exception) [] exception
  | label {n id : Nat} {before after : List (Item Instr)} {frame : Frame V}
      {events : List Event} {exception : Option V} :
      Leaves n (.running (before ++ [.label id]) after frame) events
          exception →
        Leaves (n + 1) (.running before (.label id :: after) frame) events
          exception
  | instr {n : Nat} {instr : Instr} {before after : List (Item Instr)}
      {frame : Frame V} {here events : List Event} {outcome : Outcome V}
      {exception : Option V} :
      machine.effect instr frame here outcome →
        Leaves n
            (proceed machine code table before instr after frame.locals
              outcome) events exception →
          Leaves (n + 1) (.running before (.instr instr :: after) frame)
            (here ++ events) exception

end Runs

end DripStone.Library
