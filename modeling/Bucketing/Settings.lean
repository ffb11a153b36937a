import Bucketing.Bucketer.Assigner

/-! # Settings

Operations, bucketers and log formats as they are configured. A setting is read from text, or from a
self-describing value where it is stored, with a fault of its own for a value that is not the expected
setting.
-/
namespace Bucketing

inductive Serial where
  | null
  | boolean (b : Bool)
  | integer (n : Int)
  | float (x : Floating .double)
  | string (s : String)
  | sequence (items : List Serial)
  | map (entries : List (String × Serial))

namespace Serial

/-- In text about serial values, numbers from `1e-5` up to below `1e16` are positional. -/
def layout : Layout := ⟨-5, 15, true, .even⟩

/-- The kind of the value, with the value itself where it is short. -/
def describe : Serial → String
  | .null => "null"
  | .boolean b => s!"boolean \x60{b}\x60"
  | .integer n => s!"integer \x60{n}\x60"
  | .float x => s!"floating point \x60{String.ofList (x.textIn layout)}\x60"
  | .string s => s!"string {String.ofList (Text.quote s.toList)}"
  | .sequence _ => "sequence"
  | .map _ => "map"

end Serial

inductive SerialFault where
  | invalidType (found : Serial) (expected : String)
  | invalidValue (found : Serial) (expected : String)
  | unknownVariant (name : String) (known : List String)
  | message (text : String)

def SerialFault.text : SerialFault → String
  | .invalidType found expected => s!"invalid type: {found.describe}, expected {expected}"
  | .invalidValue found expected => s!"invalid value: {found.describe}, expected {expected}"
  | .unknownVariant name known =>
    s!"unknown variant \x60{name}\x60, expected one of " ++
      ", ".intercalate (known.map fun s => s!"\x60{s}\x60")
  | .message text => text

/-! ## Operations

An operation is stored under its name alone, or as the single key of a map, with nothing behind it.
-/

namespace Operation

def ofStoredName (name : String) : Except SerialFault Operation :=
  match ofName? name with
  | some op => .ok op
  | none => .error (.unknownVariant name (all.map Operation.name))

def ofSerial : Serial → Except SerialFault Operation
  | .string s => ofStoredName s
  | .map [(name, content)] => do
    let op ← ofStoredName name
    match content with
    | .null => return op
    | found => throw (.invalidType found "unit")
  | .map entries => .error (.invalidValue (.map entries) "map with a single key")
  | found => .error (.invalidType found "string or map")

end Operation

/-! ## Bucketers

A bucketer is written `bucket[n]`, also where it is stored.
-/

namespace Bucketer

/-- Blanks around the text and around the number do not matter. -/
def ofText (text : String) : Except Fault Bucketer :=
  match Text.after? "bucket[".toList (Text.trim text.toList) >>= Text.before? [']'] with
  | none => .error (.bucketerUnreadable text)
  | some count => do
    let count ← (Numeral.readInt32 (Text.trim count)).mapError .badNumeral
    make count

def toSerial (b : Bucketer) : Serial := .string (toString b)

/-- Of a fault only the message is kept. -/
def ofSerial : Serial → Except SerialFault Bucketer
  | .string s => (ofText s).mapError fun fault => .message fault.text
  | found => .error (.invalidType found "a string")

end Bucketer

/-! ## Log formats -/

inductive LogFormat where
  | humanReadable
  | json
  deriving DecidableEq, Repr

namespace LogFormat

/-- Case does not matter. An unknown name is shown in lower case. -/
def ofText (text : String) : Except String LogFormat :=
  match String.ofList (Text.lower text.toList) with
  | "human" | "human_readable" | "pretty" => .ok .humanReadable
  | "json" => .ok .json
  | other => .error s!"Unknown log format: {other}"

end LogFormat

end Bucketing
