import Compendium.Render.Theory
import Compendium.Search

/-!
# Hits for display

A hit is shown with a link to its anchor on the page of its theory and with the first line of its
text.
-/

namespace Compendium

structure HitSummary where
  kind : RecordKind
  theory : String
  name : String
  href : String
  excerpt : String
  deriving DecidableEq, Repr

namespace HitSummary

/-- How many characters of a line are shown. -/
def excerptLength : Nat := 120

/-- The first line of a text, cut if it is long. -/
def excerptOf (text : String) : String :=
  let line := Text.trim ((Text.lines text.toList).head?.getD [])
  if line.length ≤ excerptLength then String.ofList line
  else String.ofList (line.take excerptLength ++ ['…'])

/-- The address of an anchor on the page of a theory. -/
def hrefOf (theory anchor : String) : String :=
  "/math/" ++ slugOf theory ++ "#" ++ anchor

def ofHit : Hit → HitSummary
  | .definition theory d =>
    ⟨.definition, theory, d.name, hrefOf theory d.anchor, excerptOf d.docs⟩
  | .theorem_ theory t =>
    ⟨.theorem_, theory, t.name, hrefOf theory t.anchor, excerptOf t.statement⟩

def kindWord : RecordKind → String
  | .definition => "definition"
  | .theorem_ => "theorem"

def encode (h : HitSummary) : Json :=
  .obj [("excerpt", .str h.excerpt), ("href", .str h.href), ("kind", .str (kindWord h.kind)),
    ("name", .str h.name), ("theory", .str h.theory)]

end HitSummary

end Compendium
