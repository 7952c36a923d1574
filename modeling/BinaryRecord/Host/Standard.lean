import BinaryRecord.Host
import BinaryRecord.Host.ListingOrder
import BinaryRecord.Host.Literal

namespace BinaryRecord

/-- What the characters before leave open: nothing, an escape sequence in one of three stages, a
title that a bell ends, or a string for the device. The head of such a string has three stages. -/
inductive EscapeState
  | closed
  | escape
  | intermediate
  | control
  | title
  | deviceHead
  | deviceParameters
  | deviceIntermediate
  | device
  deriving DecidableEq, Repr

def isLayoutControl (c : Char) : Bool :=
  c = '\t' || c = '\n' || c = '\r' || c = '\x0c'

def EscapeState.afterEscape (c : Char) : EscapeState :=
  if c = '[' then .control
  else if c = ']' then .title
  else if c = 'P' then .deviceHead
  else if c = 'X' || c = '^' || c = '_' then .device
  else if '0' ≤ c && c ≤ '~' then .closed
  else if ' ' ≤ c && c ≤ '/' then .intermediate
  else .escape

/-- The head of a string for the device: parameters, then intermediate characters, and a character
that begins the string. Any that is out of place begins the string too. -/
def EscapeState.afterHead (head : EscapeState) (c : Char) : EscapeState :=
  if '@' ≤ c && c ≤ '~' then .device
  else if ' ' ≤ c && c ≤ '/' then .deviceIntermediate
  else if '0' ≤ c && c ≤ '?' then
    if head = .deviceIntermediate || (head = .deviceParameters && '<' ≤ c) then .device
    else .deviceParameters
  else head

/-- The byte that ends a string for the device counts within a character of several bytes too. -/
def endsDevice (c : Char) : Bool := (String.utf8EncodeChar c).contains 0x9C

def EscapeState.next (state : EscapeState) (c : Char) : EscapeState :=
  if c = '\x1b' then .escape
  else if c = '\x18' || c = '\x1a' then .closed
  else match state with
    | .closed => .closed
    | .escape => EscapeState.afterEscape c
    | .intermediate => if '0' ≤ c && c ≤ '~' then .closed else .intermediate
    | .control => if '@' ≤ c && c ≤ '~' then .closed else .control
    | .title => if c = '\x07' then .closed else .title
    | .deviceHead | .deviceParameters | .deviceIntermediate => state.afterHead c
    | .device => if endsDevice c then .closed else .device

def EscapeState.shows (state : EscapeState) (c : Char) : Bool :=
  match state with
  | .closed => isLayoutControl c || (' ' ≤ c && c ≠ '\x7f')
  | .escape | .intermediate | .control => isLayoutControl c
  | .title | .deviceHead | .deviceParameters | .deviceIntermediate | .device => false

/-- A layout control inside a sequence interrupts it: what follows is shown as outside a sequence,
up to the next control that is not, and there the sequence goes on. A character outside ASCII ends
an interrupted sequence for good. -/
def plainFrom (state : EscapeState) (interrupted : Bool) : List Char → List Char
  | [] => []
  | c :: rest =>
      if state.shows c || (interrupted && EscapeState.shows .closed c) then
        c :: plainFrom (if c.toNat < 0x80 then state else .closed) true rest
      else plainFrom (state.next c) false rest

def plainText (text : String) : String := String.ofList (plainFrom .closed false text.toList)

def indentLines (margin : List Char) (text : String) : String :=
  String.ofList (text.toList.flatMap fun c => if c = '\n' then c :: margin else [c])

def Level.label : Level → String
  | .debug => "DEBUG"
  | .info => "INFO"
  | .warn => "WARN"

def Level.column (level : Level) : String := level.label.pushn ' ' (5 - level.label.length)

def stampedLine (time : String) (level : Level) (target message : String) : String :=
  plainText ("[" ++ time ++ " " ++ level.column ++ " " ++ target ++ "] " ++
    indentLines (List.replicate 4 ' ') message ++ "\n")

def Failure.causeLines (failure : Failure) : List String :=
  match failure.causes with
  | [cause] => ["    " ++ indentLines (List.replicate 4 ' ') cause]
  | causes => causes.zipIdx.map fun (cause, place) =>
      "".pushn ' ' (5 - (decimal place).length) ++ decimal place ++ ": " ++
        indentLines (List.replicate 7 ' ') cause

def Failure.text (failure : Failure) : String :=
  "Error: " ++ failure.context ++ "\n" ++
    (if failure.causes.isEmpty then ""
     else "\nCaused by:\n" ++ String.join (failure.causeLines.map fun line => line ++ "\n"))

/-- A host on which a run takes no time, and which builds one record after the other. -/
def Host.standard (time : String) : Host where
  quote := quoteLiteral
  logLine _ := stampedLine time
  report := Failure.text
  listed entries := entries.mergeSort fun first second => listsBefore first.name second.name
  listed_perm entries := List.mergeSort_perm entries _
  finished events := events
  finished_perm events := .refl events

end BinaryRecord
