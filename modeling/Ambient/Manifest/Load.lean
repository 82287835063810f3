import Ambient.FileTree
import Ambient.Manifest.Decode
import Ambient.Manifest.Json
import Ambient.Manifest.Toml.Document
import Ambient.Source

/-! Loading manifests: reading a text, and checking the declarations it holds. -/
namespace Ambient.Manifest

inductive LoadError
  | unreadable (path : String) (failure : ReadFailure)
  /-- The text is not a manifest. -/
  | unparsed (format : Format) (filename : String) (problem : Problem)
  /-- A declaration in the manifest is at fault, at a place in the text if it was found there. -/
  | invalid (filename : String) (message : String) (span : Option Span)
deriving DecidableEq

namespace LoadError

def message : LoadError → String
  | .unreadable path _ => "failed to read '" ++ path ++ "'"
  | .unparsed .. => "failed to parse declaration manifest"
  | .invalid _ message _ => message

def code : LoadError → String
  | .unreadable .. => "declgen::io"
  | .unparsed .toml .. => "declgen::parse_error"
  | .unparsed .json .. => "declgen::json_error"
  | .invalid .. => "declgen::invalid_manifest"

/-- The place in the text, labelled with what is wrong there. -/
def labels : LoadError → List (String × Span)
  | .invalid _ message (some span) => [(message, span)]
  | _ => []

end LoadError

/-- Files with the extension of JSON hold JSON, all others TOML. -/
def Format.ofPath (path : String) : Format := if Path.isJson path then .json else .toml

def document (format : Format) (source : String) : Document :=
  match format with
  | .toml => Toml.document source
  | .json => Json.document source

/-- The file that a text describes, before it is checked. -/
def decode (format : Format) (source : String) : Except Problem File :=
  (document format source).read ((fileSchema format).read format)

/--
Where the name that an error is about stands in the text: a repeated one is its second entry behind
the owner's name, an empty one the first empty entry.
-/
def locate (source : String) : Error → Option Span
  | .duplicate owner name => Source.nameSpan source name owner.name? 1
  | .emptyName _ => Source.nameSpan source "" none 0
  | _ => none

def load (format : Format) (source filename : String) : Except LoadError File :=
  match decode format source with
  | .error p => .error (.unparsed format filename p)
  | .ok file =>
    match file.validate with
    | .error e => .error (.invalid filename e.message (locate source e))
    | .ok () => .ok file

/-- The name that a manifest goes by when it comes from no file. -/
def standardFilename : String := "decl.toml"

end Ambient.Manifest
