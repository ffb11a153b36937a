import Bucketing.Making
import Bucketing.Command.Basic

/-! # Command line arguments

Reading a command from its arguments. They are taken from left to right, each filling an option or
the next place. An argument is checked when the next one is taken, so that an unknown argument
behind it is reported first; only a value joined to its option is checked at once. Places that are
still empty are reported last.
-/
namespace Bucketing

/-- Why arguments make no command. -/
inductive Usage where
  | noArguments
  | unknownCommand
  | unknownArgument
  | missingArgument
  | missingOptionValue
  | invalidValue
  deriving DecidableEq, Repr

def Usage.message : Usage → String
  | .noArguments => "no command given; use hash, bucket or project"
  | .unknownCommand => "unknown command; use hash, bucket or project"
  | .unknownArgument => "unexpected argument"
  | .missingArgument => "a required argument is missing"
  | .missingOptionValue => "an option lacks its value"
  | .invalidValue => "an argument has an invalid value"

namespace Command

/-- The places of arguments that are told by their order. -/
inductive Place where
  | type
  | column
  | op
  | value
  | values
  deriving DecidableEq, Repr

/-- Whether an argument that looks like an option may stand there. -/
def Place.takesHyphen : Place → Bool
  | .value | .values => true
  | _ => false

inductive Flag where
  | count
  | partitionName
  | strict
  deriving DecidableEq, Repr

structure Arguments where
  count : Option Int32 := none
  direction : Direction := .inclusive
  partitionName : Option String := none
  type : Option ColumnType := none
  column : Option String := none
  op : Option Operation := none
  value : Option String := none
  values : List String := []

namespace Arguments

def checked {α : Type} (result : Option α) : Except Usage α :=
  match result with
  | some x => .ok x
  | none => .error .invalidValue

def fill (arguments : Arguments) (text : String) : Place → Except Usage Arguments
  | .type => do return { arguments with type := ← checked (ColumnType.ofText text).toOption }
  | .column => .ok { arguments with column := text }
  | .op => do return { arguments with op := ← checked (Operation.ofText? text) }
  | .value => .ok { arguments with value := text }
  | .values => .ok { arguments with values := arguments.values ++ [text] }

def set (arguments : Arguments) (text : String) : Flag → Except Usage Arguments
  | .count => do
    return { arguments with count := ← checked (Numeral.readInt32 text.toList).toOption }
  | .partitionName => .ok { arguments with partitionName := text }
  | .strict => .ok { arguments with direction := .strict }

end Arguments

def looksLikeOption (text : String) : Bool :=
  match text.toList with
  | '-' :: _ :: _ => true
  | _ => false

/-- An option as it is written, with the value that a long one may carry behind an equals sign. -/
def Flag.ofText? (text : String) : Option (Flag × Option String) :=
  match text with
  | "-n" | "--num-buckets" => some (.count, none)
  | "--partition-name" => some (.partitionName, none)
  | "--strict" => some (.strict, none)
  | _ =>
    match Text.after? "--num-buckets=".toList text.toList,
      Text.after? "--partition-name=".toList text.toList with
    | some value, _ => some (.count, some (String.ofList value))
    | none, some value => some (.partitionName, some (String.ofList value))
    | none, none => none

/-- Where the reading of arguments stands. -/
structure Progress where
  verbatim : Bool := false
  awaiting : Option Flag := none
  places : List Place
  /-- What is filled, with the last argument still to be checked. -/
  filled : Except Usage Arguments := .ok {}

namespace Progress

/-- The last place takes any number of values, and once it has one it takes everything. -/
def fillPlace (p : Progress) (text : String) : Except Usage Progress :=
  match p.places with
  | [] => .error .unknownArgument
  | place :: places =>
    if looksLikeOption text && !p.verbatim && !place.takesHyphen then .error .unknownArgument
    else do
      let filled := (← p.filled).fill text place
      if place == .values then return { p with verbatim := true, filled }
      return { p with places, filled }

def take (flags : List Flag) (p : Progress) (text : String) : Except Usage Progress :=
  let known? (text : String) := (Flag.ofText? text).filter (flags.contains ·.1)
  match p.awaiting with
  | some flag =>
    if looksLikeOption text then
      .error (if (known? text).isSome then .missingOptionValue else .unknownArgument)
    else do return { p with awaiting := none, filled := (← p.filled).set text flag }
  | none =>
    if p.verbatim then p.fillPlace text
    else
      match known? text with
      | some (.strict, _) => do return { p with filled := (← p.filled).set text .strict }
      | some (flag, some value) => do
        let filled ← (← p.filled).set value flag
        return { p with filled := .ok filled }
      | some (flag, none) => do
        let filled ← p.filled
        return { p with awaiting := some flag, filled := .ok filled }
      | none => if text = "--" then .ok { p with verbatim := true } else p.fillPlace text

def finish (p : Progress) : Except Usage Arguments :=
  if p.awaiting.isSome then .error .missingOptionValue else p.filled

end Progress

def scan (flags : List Flag) (places : List Place) (texts : List String) :
    Except Usage Arguments := do
  let p ← texts.foldlM (Progress.take flags) { places }
  p.finish

def required {α : Type} (argument : Option α) : Except Usage α :=
  match argument with
  | some x => .ok x
  | none => .error .missingArgument

def ofArguments : List String → Except Usage Command
  | [] => .error .noArguments
  | "hash" :: texts => do
    let arguments ← scan [] [.type, .value] texts
    return .hash (← required arguments.type) (← required arguments.value)
  | "bucket" :: texts => do
    let arguments ← scan [.count] [.type, .value] texts
    return .bucket (← required arguments.count) (← required arguments.type)
      (← required arguments.value)
  | "project" :: texts => do
    let arguments ← scan [.count, .partitionName, .strict] [.type, .column, .op, .values] texts
    return .project (← required arguments.count) arguments.direction arguments.partitionName
      (← required arguments.type) (← required arguments.column) (← required arguments.op)
      arguments.values
  | text :: _ => .error (if looksLikeOption text then .unknownArgument else .unknownCommand)

end Command

end Bucketing
