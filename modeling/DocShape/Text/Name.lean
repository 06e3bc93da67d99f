/-!
# Names

The classes of names a schema knows: names of system fields, document ids, and identifiers, which
stand in an expression without quotes.
-/

namespace DocShape.Text

/-- Whether a field name belongs to the storage: it starts with an underscore. -/
def isSystemName (name : String) : Bool := name.toList.head? == some '_'

/-- The characters of a document id: ASCII letters, digits, underscore and hyphen. -/
def isIdChar (c : Char) : Bool := c.isAlphanum || c = '_' || c = '-'

def isDocumentId (s : String) : Bool := !s.toList.isEmpty && s.toList.all isIdChar

/-- The characters that an identifier may start with. -/
def isIdentifierStart (c : Char) : Bool := c.isAlpha || c = '_' || c = '$'

/-- The characters of an identifier after its first. -/
def isIdentifierRest (c : Char) : Bool := c.isAlphanum || c = '_' || c = '$'

def isIdentifier (name : String) : Bool :=
  match name.toList with
  | [] => false
  | c :: rest => isIdentifierStart c && rest.all isIdentifierRest

end DocShape.Text
