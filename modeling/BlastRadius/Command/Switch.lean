import BlastRadius.Text.Integer

/-!
Switches of the command line and their reading from a list of arguments.

A switch has a long name, written after two hyphens, and may have a one-letter name, written after
one. A value follows as the next argument, after an equals sign, or directly after the letter.
-/

namespace BlastRadius

/-- A switch of the command line. -/
inductive Switch where
  | db
  | retryAttempts
  | retryBackoff
  | identity
  | fromCurrentMarks
  | converge
  | deadline
  | output
  | domain
  deriving DecidableEq, Repr

namespace Switch

/-- The switches that may stand before and after the command. -/
def general : List Switch := [db, retryAttempts, retryBackoff]

def name : Switch → String
  | db => "db"
  | retryAttempts => "retry-attempts"
  | retryBackoff => "retry-backoff-ms"
  | identity => "identity"
  | fromCurrentMarks => "from-current-marks"
  | converge => "converge"
  | deadline => "deadline-ms"
  | output => "output"
  | domain => "domain"

def letter? : Switch → Option Char
  | db => some 'd'
  | identity => some 'i'
  | output => some 'o'
  | _ => none

/-- Whether a value belongs to a switch. -/
def takesValue : Switch → Bool
  | fromCurrentMarks | converge => false
  | _ => true

/-- The number of retries that a value gives. -/
def attempts? (value : String) : Option Nat := Text.signedBelow? UInt32.size value

/-- The number of milliseconds that a value gives. -/
def milliseconds? (value : String) : Option Nat := Text.naturalBelow? UInt64.size value

def accepts (switch : Switch) (value : String) : Bool :=
  match switch with
  | retryAttempts => (attempts? value).isSome
  | retryBackoff | deadline => (milliseconds? value).isSome
  | output => !value.isEmpty
  | _ => true

end Switch

/-- How an argument reads. -/
inductive Argument where
  /-- A value of its own. -/
  | operand (text : String)
  /-- The end of the switches. -/
  | terminator
  /-- A switch, with its value if that is part of the argument. -/
  | switch (switch : Switch) (value : Option String)
  /-- A switch that does not exist, or a value for a switch that takes none. -/
  | unknown
  deriving DecidableEq, Repr

namespace Argument

/-- A switch with the value that is part of the argument. -/
def ofSwitch (found : Option Switch) (value : Option String) : Argument :=
  match found with
  | some found => if value.isSome && !found.takesValue then unknown else switch found value
  | none => unknown

/-- Reads what follows two hyphens. -/
def ofLong (known : List Switch) (cs : List Char) : Argument :=
  let name := String.ofList (cs.takeWhile (· != '='))
  let value := match cs.dropWhile (· != '=') with
    | [] => none
    | _ :: value => some (String.ofList value)
  ofSwitch (known.find? fun candidate => candidate.name == name) value

/-- Reads a letter after one hyphen, and what follows it. -/
def ofShort (known : List Switch) (letter : Char) (cs : List Char) : Argument :=
  let value := match cs with
    | [] => none
    | '=' :: value => some (String.ofList value)
    | value => some (String.ofList value)
  ofSwitch (known.find? fun candidate => candidate.letter? == some letter) value

/-- Reads an argument. A single hyphen is an operand. -/
def read (known : List Switch) (text : String) : Argument :=
  match text.toList with
  | ['-', '-'] => terminator
  | '-' :: '-' :: cs => ofLong known cs
  | '-' :: letter :: cs => ofShort known letter cs
  | _ => operand text

end Argument

/-- The switches and operands of a list of arguments. -/
structure Given where
  /-- The switches in their order, with their values. A switch without a value has the empty one. -/
  switches : List (Switch × String) := []
  operands : List String := []
  deriving DecidableEq, Repr

namespace Given

def withSwitch (switch : Switch) (value : String) (given : Given) : Given :=
  { given with switches := (switch, value) :: given.switches }

def withOperand (text : String) (given : Given) : Given :=
  { given with operands := text :: given.operands }

/-- Whether an argument can be the value of the switch before it. -/
def isValue (text : String) : Bool := text == "-" || !text.startsWith "-"

/-- Reads the arguments after `pending`, a switch that waits for its value. If `leading`, only
the switches in front of the first operand are read, and the operands are that one and
everything after it. -/
def read? (known : List Switch) (leading : Bool) : Option Switch → List String → Option Given
  | none, [] => some {}
  | some _, [] => none
  | some switch, text :: rest =>
      if isValue text && switch.accepts text then
        (read? known leading none rest).map (withSwitch switch text)
      else none
  | none, text :: rest =>
      match Argument.read known text with
      | .operand text =>
          if leading then some { operands := text :: rest }
          else (read? known leading none rest).map (withOperand text)
      | .terminator => if leading then none else some { operands := rest }
      | .switch switch (some value) =>
          if switch.accepts value then
            (read? known leading none rest).map (withSwitch switch value)
          else none
      | .switch switch none =>
          if switch.takesValue then read? known leading (some switch) rest
          else (read? known leading none rest).map (withSwitch switch "")
      | .unknown => none

/-- Whether no switch is repeated. -/
def isDistinct (given : Given) : Bool :=
  decide (given.switches.map Prod.fst).Nodup

end Given

end BlastRadius
