import StackAsm.Text.Quoted
import StackAsm.Yaml.Fault

set_option autoImplicit false

namespace StackAsm.Settings

inductive Target where
  | switch
  | path
  | settings
  deriving DecidableEq, Repr

def Target.name : Target → String
  | .switch => "bool"
  | .path => "string"
  | .settings => "main.config"

inductive Problem where
  | wrongKind (line : Nat) (tag : Yaml.Tag) (value : Bytes) (target : Target)
  | unknownKey (line : Nat) (key : Bytes)
  | repeatedKey (line : Nat) (key : Bytes) (first : Nat)
  | repeatedSetting (line : Nat) (key : Bytes)
  deriving DecidableEq, Repr

def abridged (value : Bytes) : Bytes :=
  if 10 < value.length then value.take 7 ++ utf8 "..." else value

-- Values with the tag of a collection, which are mostly empty, are not set apart.
def valueText (tag : Yaml.Tag) (value : Bytes) : Bytes :=
  match tag with
  | .sequence | .mapping => value
  | _ => utf8 " `" ++ abridged value ++ utf8 "`"

def Problem.message : Problem → Bytes
  | .wrongKind line tag value target =>
    utf8 "line " ++ Numeral.decimal line ++ utf8 ": cannot unmarshal " ++ tag.name ++
      valueText tag value ++ utf8 " into " ++ utf8 target.name
  | .unknownKey line key =>
    utf8 "line " ++ Numeral.decimal line ++ utf8 ": field " ++ key ++
      utf8 " not found in type " ++ utf8 Target.settings.name
  | .repeatedKey line key first =>
    utf8 "line " ++ Numeral.decimal line ++ utf8 ": mapping key " ++ quote key ++
      utf8 " already defined at line " ++ Numeral.decimal first
  | .repeatedSetting line key =>
    utf8 "line " ++ Numeral.decimal line ++ utf8 ": field " ++ key ++
      utf8 " already set in type " ++ utf8 Target.settings.name

end StackAsm.Settings
