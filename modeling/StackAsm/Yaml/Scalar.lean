import StackAsm.Text.Base64
import StackAsm.Yaml.Fault
import StackAsm.Yaml.Timestamp

set_option autoImplicit false

namespace StackAsm.Yaml

def isOneOf (value : Bytes) (spellings : List String) : Bool :=
  spellings.any fun s => value == utf8 s

def isNullSpelling (value : Bytes) : Bool :=
  isOneOf value ["", "~", "null", "Null", "NULL"]

def truthSpelling? (value : Bytes) : Option Bool :=
  if isOneOf value ["true", "True", "TRUE"] then some true
  else if isOneOf value ["false", "False", "FALSE"] then some false
  else none

-- Words that older documents use for truth values. They are text, but can stand for one.
def wordSpelling? (value : Bytes) : Option Bool :=
  if isOneOf value ["y", "Y", "yes", "Yes", "YES", "on", "On", "ON"] then some true
  else if isOneOf value ["n", "N", "no", "No", "NO", "off", "Off", "OFF"] then some false
  else none

def isSpecialFloat (value : Bytes) : Bool :=
  isOneOf value [".nan", ".NaN", ".NAN", ".inf", ".Inf", ".INF", "+.inf", "+.Inf", "+.INF", "-.inf",
    "-.Inf", "-.INF"]

def bareNumber (value : Bytes) : Bytes :=
  value.filter (· ≠ Ascii.underscore)

def numberTag (dated : Bool) (value : Bytes) : Tag :=
  if dated && Timestamp.isTimestamp value then .timestamp
  else if Number.isInteger (bareNumber value) then .integer
  else if Number.isFloat (bareNumber value) then .float
  else .text

def spelledTag (dated : Bool) (value : Bytes) : Tag :=
  if isNullSpelling value then .null
  else if (truthSpelling? value).isSome then .boolean
  else if isSpecialFloat value then .float
  else
    match value with
    | [] => .null
    | b :: _ =>
      if isDigit b || Number.isSign b then numberTag dated value
      else if b = Ascii.point && Number.isSeparated false value &&
        Number.isFloat (bareNumber value) then .float
      else .text

inductive Meaning where
  | nothing
  | truth (on : Bool)
  | text (value : Bytes)
  | other
  deriving DecidableEq, Repr

-- Whether a spelling can have a tag: an integer of 64 bits with a sign is also a float.
def isSuited (value : Bytes) (found tag : Tag) : Bool :=
  found == tag || (tag == .float && found == .integer && Number.isSignedInteger (bareNumber value))

/-- The meaning of a scalar with a tag. The standard tags, except that of text, ask for a spelling;
anything else is text. -/
def meaning (tag : Tag) (value : Bytes) : Except Fault Meaning :=
  let found := spelledTag (tag == .timestamp) value
  match tag with
  | .text | .merge | .sequence | .mapping | .custom _ => .ok (.text value)
  | .binary =>
    match Base64.decode? value with
    | some data => .ok (.text data)
    | none => .error (.overall .invalidBase64)
  | .null | .boolean | .integer | .float | .timestamp =>
    if !isSuited value found tag then .error (.overall (.mistagged found value tag))
    else if tag == .null then .ok .nothing
    else if tag == .boolean then .ok (((truthSpelling? value).map Meaning.truth).getD .other)
    else .ok .other

end StackAsm.Yaml
