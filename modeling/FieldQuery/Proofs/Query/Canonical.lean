import FieldQuery.Query.Level

/-!
# Canonical text of selections

Well-formed selections are those that some text can ask for: every name consists of characters
that may stand in a field name, and every key of characters that may stand in a key. Each list of
selections has a canonical text, without blanks and comments.
-/

set_option autoImplicit false

namespace FieldQuery.Query

def IsName (name : String) : Prop :=
  name ≠ "" ∧ ∀ character ∈ name.toList, isNameCharacter character = true

def IsKey (key : String) : Prop :=
  key ≠ "" ∧ ∀ character ∈ key.toList, isKeyCharacter character = true

def HasKeys (arguments : Arguments) : Prop := ∀ key ∈ arguments.keys, IsKey key

mutual

/-- A selection in which all names and keys can be written. -/
def WellFormed : Selection → Prop
  | .leaf name => IsName name
  | .branch name arguments selections =>
      IsName name ∧ HasKeys arguments ∧ AllWellFormed selections

def AllWellFormed : List Selection → Prop
  | [] => True
  | selection :: rest => WellFormed selection ∧ AllWellFormed rest

end

def canonicalCharacter (character : Char) : List Char :=
  if character = '\\' then ['\\', '\\']
  else if character = '"' then ['\\', '"']
  else if character = '\n' then ['\\', 'n']
  else [character]

def canonicalValue : ArgumentValue → List Char
  | .integer value => (Text.decimal value.toInt).toList
  | .text text => '"' :: (text.toList.flatMap canonicalCharacter ++ ['"'])

def canonicalPair (pair : String × ArgumentValue) : List Char :=
  pair.1.toList ++ ':' :: canonicalValue pair.2

/-- An argument list, which is left out if there are no arguments. -/
def canonicalArguments (arguments : Arguments) : List Char :=
  if arguments.isEmpty then []
  else '(' :: ([','].intercalate (arguments.entries.map canonicalPair) ++ [')'])

mutual

def canonicalSelection : Selection → List Char
  | .leaf name => name.toList
  | .branch name arguments selections =>
      name.toList ++ (canonicalArguments arguments
        ++ '{' :: ([','].intercalate (canonicalEach selections) ++ ['}']))

def canonicalEach : List Selection → List (List Char)
  | [] => []
  | selection :: rest => canonicalSelection selection :: canonicalEach rest

end

def canonicalText (selections : List Selection) : String :=
  String.ofList ([','].intercalate (canonicalEach selections))

end FieldQuery.Query
