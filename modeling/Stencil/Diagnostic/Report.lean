import Stencil.Diagnostic.Basic

/-!
# Diagnostic/Report — a diagnostic for the operator

Two renderings of the same facts: one log line, and a fragment of HTML in which every value is
escaped, character by character (`escapeHtml`).
-/

namespace Stencil

namespace Diagnostic

/-- The form of a character in HTML text. -/
def escapeChar (c : Char) : Text :=
  if c = '&' then "&amp;"
  else if c = '<' then "&lt;"
  else if c = '>' then "&gt;"
  else if c = '"' then "&quot;"
  else if c = '\'' then "&#039;"
  else [c]

/-- The form of a text in HTML. -/
def escapeHtml (t : Text) : Text := t.flatMap escapeChar

/-- The log line: title, code and message, then the known places. -/
def logLine (d : Diagnostic) : Text :=
  d.family.title ++ ": " ++ d.display
    ++ (match d.file with
      | some file => " in " ++ file
      | none => [])
    ++ (match d.line with
      | some line => " on line " ++ Text.decimal line
      | none => [])
    ++ (match d.tag with
      | some tag => " near `" ++ Text.trim tag ++ "`"
      | none => [])

/-- The HTML report: the same facts, escaped, in fixed markup. -/
def html (d : Diagnostic) : Text :=
  "<b>" ++ d.family.title ++ "</b> " ++ escapeHtml d.display
    ++ (match d.file with
      | some file => " in <b>" ++ escapeHtml file ++ "</b>"
      | none => [])
    ++ (match d.line with
      | some line => " on line <b>" ++ Text.decimal line ++ "</b>"
      | none => [])
    ++ (match d.tag with
      | some tag => "<br><code>" ++ escapeHtml (Text.trim tag) ++ "</code>"
      | none => [])

end Diagnostic

end Stencil
