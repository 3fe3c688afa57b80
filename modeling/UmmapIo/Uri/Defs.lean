import UmmapIo.Lib.Regex
import Mathlib.Data.Finmap

/-!
# Resource identifiers

The class `Uri` and its two parsers. `regexParse` matches the string against
`cst_uri_regexp` and splits the last group at its separators. `noRegexParse`
replaces it where the regular expressions of the compiler are broken: it reads
the string character by character, up to and including the terminator, and
appends to the part it is in.

The fatal messages end the process, so a parser that rejects the string returns
no object.
-/

namespace UmmapIo

/-- The characters of a string. -/
abbrev Text : Type := List Char

/-- The parameters of a URI. -/
abbrev Params : Type := Finmap fun _ : Text => Text

/-- The fields of a URI. -/
structure Uri : Type where
  /-- The full address. -/
  uri : Text
  /-- The type of the object to build. -/
  type : Text
  /-- The path part. -/
  path : Text
  /-- The values of the parameters. -/
  params : Params
  deriving DecidableEq

/-- The four parts of a URI between its separators. -/
inductive UriPart : Type
  | type
  | path
  | key
  | value
  deriving DecidableEq

/-- The text between the type and the path. -/
def typeEnd : Text := "://".toList

/-- The character that a string ends with in memory. -/
def terminator : Char := '\x00'

/-- The characters of the type: `[a-zA-Z0-9-]`. -/
def isTypeChar (c : Char) : Bool :=
  c.isAlphanum || c ∈ "-".toList

/-- The characters of the path: `[a-zA-Z0-9_/.:-]`. -/
def isPathChar (c : Char) : Bool :=
  c.isAlphanum || c ∈ "_/.:-".toList

/-- The characters of the name of a parameter: `[a-zA-Z0-9]`. -/
def isKeyChar (c : Char) : Bool :=
  c.isAlphanum

/-- The characters of the value of a parameter: `[a-zA-Z0-9._/+-]`. -/
def isValueChar (c : Char) : Bool :=
  c.isAlphanum || c ∈ "._/+-".toList

/-- A parameter in the regular expression. -/
def paramRegexp : Regex Char :=
  .seq (.plus (.oneOf isKeyChar))
    (.seq (.literal "=".toList) (.plus (.oneOf isValueChar)))

/-- The query in the regular expression: the third group with the two groups
inside it. -/
def queryRegexp : Regex Char :=
  .group 3
    (.seq (.literal "?".toList)
      (.seq (.optional (.group 4 paramRegexp))
        (.star (.group 5 (.seq (.literal "&".toList) paramRegexp)))))

/-- The regular expression that checks a URI and extracts its parts. The whole
string has to match, so its two anchors are implied. -/
def cstUriRegexp : Regex Char :=
  .seq (.group 1 (.plus (.oneOf isTypeChar)))
    (.seq (.literal typeEnd)
      (.seq (.group 2 (.plus (.oneOf isPathChar))) (.optional queryRegexp)))

/-- Message of a string that is no URI. -/
def unrecognizedFormat (uri : Text) : Text :=
  "Unrecongnized ummap URI format : ".toList ++ uri

/-- End the process with a message when a check fails. -/
def assumeArg (check : Bool)
    (message : Text) : Except Text Unit :=
  if check then .ok () else .error message

/-- The loop of `regexParse` over the query behind its question mark. -/
def splitArgs (params : Params)
    (name buf : Text) : Text → Params
  | [] => params
  | c :: rest =>
      if c = '&' then splitArgs (params.insert name buf) [] [] rest
      else if c = '=' then splitArgs params buf [] rest
      else splitArgs params name (buf ++ [c]) rest

/-- The variables of the loop of `noRegexParse`. -/
structure UriScan : Type where
  /-- The field `type` of the object. -/
  type : Text
  /-- The field `path` of the object. -/
  path : Text
  /-- The field `params` of the object. -/
  params : Params
  /-- The name of the parameter being read. -/
  key : Text
  /-- The value of the parameter being read. -/
  value : Text
  /-- The part the separators so far lead to. -/
  state : UriPart
  /-- The text that the next character is appended to. -/
  cur : UriPart
  deriving DecidableEq

namespace UriScan

/-- Append to the current text. -/
def append (scan : UriScan)
    (text : Text) : UriScan :=
  match scan.cur with
  | .type => { scan with type := scan.type ++ text }
  | .path => { scan with path := scan.path ++ text }
  | .key => { scan with key := scan.key ++ text }
  | .value => { scan with value := scan.value ++ text }

/-- Go on with another part. -/
def enter (scan : UriScan)
    (part : UriPart) : UriScan :=
  { scan with state := part, cur := part }

/-- Store the parameter that has been read. -/
def store (scan : UriScan) : UriScan :=
  { scan with
    params := scan.params.insert scan.key scan.value
    key := []
    value := [] }

/-- The loop of `noRegexParse` from the current character on. -/
def loop (uri : Text) : UriScan → Text → Except Text UriScan
  | scan, [] => .ok scan
  | scan, ':' :: '/' :: '/' :: rest => do
      assumeArg (scan.state = .type) (unrecognizedFormat uri)
      loop uri (scan.enter .path) rest
  | scan, c :: rest =>
      if c = '?' then do
        assumeArg (scan.state = .path) (unrecognizedFormat uri)
        loop uri (scan.enter .key) rest
      else if c = '&' ∨ c = terminator then do
        assumeArg (scan.state = .value ∨ scan.state = .path) (unrecognizedFormat uri)
        if scan.state = .value then loop uri (scan.store.enter .key) rest
        else loop uri scan rest
      else if c = '=' then do
        assumeArg (scan.state = .key) (unrecognizedFormat uri)
        loop uri (scan.enter .value) rest
      else loop uri (scan.append [c]) rest

end UriScan

namespace Uri

/-- Reset the content. -/
def reset : Uri where
  uri := []
  type := []
  path := []
  params := ∅

/-- The variables of `noRegexParse` when its loop starts. -/
def startScan (self : Uri) : UriScan where
  type := []
  path := []
  params := self.params
  key := []
  value := []
  state := .type
  cur := .type

/-- Parse without regular expressions. -/
def noRegexParse (self : Uri)
    (uri : Text) : Except Text Uri := do
  let scan ← UriScan.loop uri self.startScan (uri ++ [terminator])
  return { uri := uri, type := scan.type, path := scan.path, params := scan.params }

/-- Parse with the regular expression. -/
def regexParse (self : Uri)
    (uri : Text) : Except Text Uri :=
  match cstUriRegexp.matchWhole uri with
  | some groups =>
      .ok {
        uri := uri
        type := groups 1
        path := groups 2
        params :=
          if groups 3 ≠ [] then
            splitArgs self.params [] [] ((groups 3 ++ ['&']).drop 1)
          else self.params }
  | none => .error (unrecognizedFormat uri)

/-- Parse after a reset. The second parser is used when the regular expression
throws. -/
def parse (regexThrows : Bool)
    (uri : Text) : Except Text Uri :=
  if regexThrows then reset.noRegexParse uri else reset.regexParse uri

end Uri
end UmmapIo
