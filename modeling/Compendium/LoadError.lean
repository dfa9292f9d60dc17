import Compendium.Decimal.Layout

/-!
# What can go wrong with content
-/

namespace Compendium

/-- Why a piece of content, a snapshot or a text of settings cannot be used. -/
inductive LoadError where
  | status (path : String) (status : Nat)
  | notJson (path contentType : String)
  | malformed (path : String)
  | emptyTheory (id : String)
  | unreadable
  | settings
  | snapshot
  | snapshotVersion (found expected : Nat)
  deriving DecidableEq, Repr

namespace LoadError

/-- A number in a message. -/
def number (n : Nat) : String :=
  String.ofList (Decimal.natText n)

def message : LoadError → String
  | status path code => "Fetch failed for " ++ path ++ ": HTTP " ++ number code
  | notJson path contentType =>
    "Expected JSON at " ++ path ++ ", got content type '" ++ contentType ++ "'"
  | malformed path => "Malformed JSON at " ++ path
  | emptyTheory id => "Theory '" ++ id ++ "' lists no definitions or theorems"
  | unreadable => "The file cannot be read"
  | settings => "The settings cannot be read"
  | snapshot => "The cache snapshot cannot be read"
  | snapshotVersion found expected =>
    "Incompatible cache snapshot version " ++ number found ++ " (expected " ++
      number expected ++ ")"

end LoadError

end Compendium
