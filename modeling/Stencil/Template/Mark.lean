import Stencil.Json.Document

/-!
# Template/Mark — where a statement came from

Every generated statement carries a mark, a host comment that holds the line and the text of its
tag as JSON.  The end of a comment inside the text is written `*\/`, which JSON reads back as `*/`,
so that the comment ends only where it should.  `Mark.find?` is the first comment of a text that
reads as a mark: its line has at most 32 bits, and members that a mark does not have are passed
over.
-/

namespace Stencil

/-- The line and the text of a tag. -/
structure Mark where
  line : Nat
  code : Text
  deriving DecidableEq, Repr

/-- Puts a backslash into each `*/`. -/
def guardCommentEnd : Text → Text
  | [] => []
  | '*' :: '/' :: t => '*' :: '\\' :: '/' :: guardCommentEnd t
  | c :: t => c :: guardCommentEnd t

namespace Mark

/-- The mark as a JSON object. -/
def json (m : Mark) : Text :=
  "\x7b\"line\":" ++ Text.decimal m.line ++ ",\"code\":" ++ Json.quote m.code ++ "\x7d"

/-- The mark as a host comment. -/
def comment (m : Mark) : Text := "/* " ++ guardCommentEnd m.json ++ " */"

/-- The mark that the members of an object describe, after the line and the code found so far. -/
def ofMembers? (line : Option Nat) (code : Option Text) :
    List (Option Text × Json.Doc) → Option Mark
  | [] =>
    match line, code with
    | some line, some code => some ⟨line, code⟩
    | _, _ => none
  | (none, _) :: _ => none
  | (some key, value) :: members =>
    if key = "line" then
      match line, value.asNat 32 with
      | none, .ok n => ofMembers? (some n) code members
      | _, _ => none
    else if key = "code" then
      match code, value.asText with
      | none, .ok t => ofMembers? line (some t) members
      | _, _ => none
    else ofMembers? line code members

/-- The mark that a JSON text holds. -/
def ofJson? (t : Text) : Option Mark :=
  match Json.Doc.read t with
  | (.object members _, some rest) =>
    if (Json.skipSpace rest).isEmpty then ofMembers? none none members else none
  | _ => none

/-- The mark whose comment starts a text. -/
def at? (t : Text) : Option Mark :=
  match Text.dropPrefix? "/* " t with
  | some ('{' :: rest) =>
    match Text.breakOn? " */" ('{' :: rest) with
    | some (json, _) => ofJson? json
    | none => none
  | _ => none

/-- **The first mark in a text.** -/
def find? : Text → Option Mark
  | [] => none
  | c :: t =>
    match at? (c :: t) with
    | some m => some m
    | none => find? t

end Mark

end Stencil
