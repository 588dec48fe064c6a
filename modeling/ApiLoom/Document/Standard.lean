import ApiLoom.Document.Json.Reader
import ApiLoom.Document.Parsers
import ApiLoom.Document.Yaml.Reader

/-!
# The standard parsers

The readers of this library as parsers.  What they break off with are scalars without a
value.  They stand in for parsers that read more: YAML beyond its core is refused here, and
half of a surrogate pair in JSON is replaced.
-/

namespace ApiLoom

def ScalarFault.parserFault (fault : ScalarFault) : ParserFault :=
  ⟨fault.className, fault.message⟩

def Json.parse (text : String) : Except ParserFailure Value :=
  match read text with
  | .ok v => .ok v
  | .error (.longNumber count) => .error (.broken (ScalarFault.longNumber count).parserFault)
  | .error e => .error (.refused e.message)

/-- What is malformed in a text is not told. -/
def Yaml.parse (text : String) : Except ParserFailure Value :=
  match read text with
  | .ok v => .ok v
  | .error .malformed => .error (.refused "<detail>")
  | .error (.scalar fault) => .error (.broken fault.parserFault)

def Parsers.standard : Parsers where
  json := Json.parse
  yaml := Yaml.parse

end ApiLoom
