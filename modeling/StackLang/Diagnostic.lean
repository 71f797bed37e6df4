import StackLang.Source.Location
import StackLang.Text.Quoted
import StackLang.Token.Basic

-- What can go wrong with a program, as data: a cause, the location it is
-- reported at, and notes that point at the blocks around it.

namespace StackLang

inductive UnexpectedReason where
  | general
  | freeFloating
  | repeated
  | notApplicable
deriving DecidableEq, Repr

inductive MissingReason where
  | blockNotClosed
  | requiredByBlock
deriving DecidableEq, Repr

inductive Cause where
  | unreadable (file : Path) (reason : String)
  | unexpectedMarker (marker : Marker) (reason : UnexpectedReason) (block : Option Marker)
      (detail : Option String)
  | missingMarker (marker : Marker) (reason : MissingReason) (block : Option Marker)
  | unknownWord (word : String)
  | stackUnderflow
  | divideByZero
deriving DecidableEq, Repr

namespace UnexpectedReason

def all : List UnexpectedReason := [.general, .freeFloating, .repeated, .notApplicable]

def name : UnexpectedReason → String
  | .general => "general"
  | .freeFloating => "free_floating"
  | .repeated => "repeated"
  | .notApplicable => "not_applicable"

def ofName? (s : String) : Option UnexpectedReason :=
  all.find? (·.name == s)

end UnexpectedReason

namespace MissingReason

def all : List MissingReason := [.blockNotClosed, .requiredByBlock]

def name : MissingReason → String
  | .blockNotClosed => "block_not_closed"
  | .requiredByBlock => "required_by_block"

def ofName? (s : String) : Option MissingReason :=
  all.find? (·.name == s)

end MissingReason

namespace Cause

-- The step of the work that the cause belongs to.
def stage : Cause → String
  | .unreadable _ _ => "Lexing"
  | .unexpectedMarker _ _ _ _ | .missingMarker _ _ _ | .unknownWord _ => "Parsing"
  | .stackUnderflow | .divideByZero => "Simulation"

-- A block that is not known is shown as such.
def blockText : Option Marker → String
  | some m => m.text
  | none => "None"

def message : Cause → String
  | .unreadable file reason =>
      "Failed to read the file " ++ Text.quoted file.text.toList ++ ": " ++ reason
  | .unexpectedMarker marker reason block detail =>
      let text := match reason with
        | .freeFloating => "`" ++ marker.text ++ "` must be associated with a block"
        | .repeated =>
            "`" ++ marker.text ++ "` cannot appear twice in succession within the same `"
              ++ blockText block ++ "` block"
        | .notApplicable =>
            "`" ++ marker.text ++ "` cannot appear within an `" ++ blockText block ++ "` block"
        | .general => detail.getD ""
      "Unexpected token `" ++ marker.text ++ "`: " ++ text
  | .missingMarker marker reason block =>
      let text := match reason with
        | .blockNotClosed => "Expected an `" ++ Marker.close.text ++ "` token to end the block"
        | .requiredByBlock =>
            "`" ++ blockText block ++ "` block is required to contain a `" ++ marker.text
              ++ "` block"
      "Missing expected token `" ++ marker.text ++ "`: " ++ text
  | .unknownWord word => "Unknown word: `" ++ word ++ "`"
  | .stackUnderflow => "Stack underflowed"
  | .divideByZero => "Division by zero"

end Cause

-- The marker that opened a block around the fault.
structure Note (α : Type) where
  marker : Marker
  loc : α
deriving DecidableEq, Repr

structure Diagnostic (α : Type) where
  cause : Cause
  loc : Option α
  notes : List (Note α)
deriving DecidableEq, Repr

namespace Diagnostic

variable {α β : Type}

def map (f : α → β) (d : Diagnostic α) : Diagnostic β where
  cause := d.cause
  loc := d.loc.map f
  notes := d.notes.map fun n => ⟨n.marker, f n.loc⟩

def ofCause (cause : Cause) : Diagnostic α := ⟨cause, none, []⟩

-- The first location given is kept.
def located (d : Diagnostic α) (loc : α) : Diagnostic α :=
  { d with loc := some (d.loc.getD loc) }

def addNote (d : Diagnostic α) (note : Note α) : Diagnostic α :=
  { d with notes := d.notes ++ [note] }

theorem foldl_addNote (d : Diagnostic α) (notes : List (Note α)) :
    notes.foldl addNote d = { d with notes := d.notes ++ notes } := by
  induction notes generalizing d with
  | nil => simp
  | cons note notes ih => simp [ih, addNote]

def headline (d : Diagnostic Location) : String :=
  let place := match d.loc with
    | some loc => loc.text
    | none => "Unknown Location"
  place ++ " --> [" ++ d.cause.stage ++ "] " ++ d.cause.message

def noteLine (n : Note Location) : String :=
  "    " ++ n.loc.text ++ " --> `" ++ n.marker.text ++ "` block starts here"

-- The headline, then an indented line for each note.
def lines (d : Diagnostic Location) : List String :=
  d.headline :: d.notes.map noteLine

end Diagnostic

end StackLang
