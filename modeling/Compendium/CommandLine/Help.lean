import Compendium.CommandLine.Basic

/-!
# Help on the command line

A help text says what a command is for and how it is used, and lists its commands, arguments and
options in columns.
-/

namespace Compendium.CommandLine

/-- A heading with its rows: what is written and what it means. -/
structure HelpList where
  heading : String
  rows : List (String × String)

namespace HelpList

/-- The width of the first column. -/
def width (l : HelpList) : Nat :=
  l.rows.foldl (fun n row => max n row.1.length) 0

def row (width : Nat) (r : String × String) : String :=
  "  " ++ r.1.pushn ' ' (width - r.1.length) ++ "  " ++ r.2 ++ "\n"

def text (l : HelpList) : String :=
  "\n" ++ l.heading ++ ":\n" ++ String.join (l.rows.map (row l.width))

end HelpList

/-- Help on a topic: what it is for, how it is used and its lists. -/
structure HelpText where
  about : String
  usage : String
  lists : List HelpList

def HelpText.text (h : HelpText) : String :=
  h.about ++ "\n\nUsage: " ++ h.usage ++ "\n" ++ String.join (h.lists.map HelpList.text)

def Topic.about : Topic → String
  | program => "Render and browse the math knowledge base"
  | render => "Print the HTML page for a site path"
  | tree => "Print the content folder tree"
  | search => "Search definitions and theorems in every theory"
  | help => "Print this message or the help of the given subcommand(s)"

/-- The option for the settings file. -/
def configRow : String × String := ("    --config <CONFIG>", "YAML configuration file")

/-- The option for the content root. -/
def rootRow : String × String :=
  ("    --root <ROOT>", "Content root directory, overrides `content.root`")

/-- The option for help. -/
def helpRow : String × String := ("-h, --help", "Print help")

/-- The options of a command, with its own between the ones that every command has. -/
def optionList (own : List (String × String)) : HelpList :=
  ⟨"Options", configRow :: (own ++ [rootRow, helpRow])⟩

def Topic.guide (t : Topic) : HelpText :=
  match t with
  | program =>
    ⟨t.about, "theorema [OPTIONS] <COMMAND>",
      [⟨"Commands", [("render", about .render), ("tree", about .tree), ("search", about .search),
        ("help", about .help)]⟩, optionList []]⟩
  | render =>
    ⟨t.about, "theorema render [OPTIONS] [ROUTE]",
      [⟨"Arguments", [("[ROUTE]", "[default: /]")]⟩, optionList []]⟩
  | tree =>
    ⟨t.about, "theorema tree [OPTIONS]",
      [optionList [("    --manifest", "Build from the manifest instead of discovered files")]]⟩
  | search =>
    ⟨t.about, "theorema search [OPTIONS] <QUERY>",
      [⟨"Arguments", [("<QUERY>", "")]⟩, optionList [("    --json", "")]]⟩
  | help =>
    ⟨t.about, "theorema help [COMMAND]...",
      [⟨"Arguments", [("[COMMAND]...", "Print help for the subcommand(s)")]⟩]⟩

def Topic.text (t : Topic) : String :=
  t.guide.text

end Compendium.CommandLine
