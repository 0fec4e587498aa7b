import Stencil.Text.Blank

/-!
# Template/Opener — where a tag starts

An opener is `[`, any number of backslashes, and a command character; an HTML comment start right
before it, with blanks in between, belongs to it.  `find?` gives the first opener of a text, the
text before it and the text after it; the main statement is `find?_append`, that these three make up
the text.
-/

namespace Stencil

/-- The five commands of a tag, and the start of a comment. -/
def isCommandChar (c : Char) : Bool :=
  c == '=' || c == '@' || c == '?' || c == ':' || c == '/' || c == '*'

/-- The start of an HTML comment. -/
def htmlOpen : Text := "<!--"

/-- The end of an HTML comment. -/
def htmlClose : Text := "-->"

/-- A tag opener, between the text before it and the text after it. -/
structure Opener where
  before : Text
  /-- The HTML comment start and the blanks after it, or nothing. -/
  html : Text
  backslashes : Nat
  command : Char
  rest : Text
  deriving DecidableEq, Repr

namespace Opener

/-- The text of an opener with a given number of backslashes. -/
def textWith (o : Opener) (backslashes : Nat) : Text :=
  o.html ++ '[' :: (List.replicate backslashes '\\' ++ [o.command])

/-- The text of an opener. -/
def text (o : Opener) : Text := o.textWith o.backslashes

/-- The bracket, backslashes and command that start a text: the number of backslashes, the command,
and the text after it. -/
def bracket? : Text → Option (Nat × Char × Text)
  | '[' :: t =>
    match t.dropWhile (· == '\\') with
    | c :: rest =>
      if isCommandChar c then some ((t.takeWhile (· == '\\')).length, c, rest) else none
    | [] => none
  | _ => none

/-- The first place where `bracket?` succeeds: the text before it, and what it gives. -/
def search? : Text → Option (Text × Nat × Char × Text)
  | [] => none
  | c :: t =>
    match bracket? (c :: t) with
    | some found => some ([], found)
    | none => (search? t).map fun (before, found) => (c :: before, found)

/-- The HTML comment start that ends a text before trailing blanks: the text before it, and from it
on. -/
def splitHtml (before : Text) : Text × Text :=
  let trimmed := Text.trimEnd before
  if htmlOpen.isSuffixOf trimmed then before.splitAt (trimmed.length - htmlOpen.length)
  else (before, [])

/-- **The first opener of a text.** -/
def find? (t : Text) : Option Opener :=
  (search? t).map fun (before, backslashes, command, rest) =>
    let (before, html) := splitHtml before
    ⟨before, html, backslashes, command, rest⟩

theorem bracket?_append {t : Text} {n : Nat} {c : Char} {rest : Text}
    (h : bracket? t = some (n, c, rest)) :
    '[' :: (List.replicate n '\\' ++ c :: rest) = t := by
  unfold bracket? at h
  split at h
  · next t =>
    split at h
    · next d r hd =>
      split at h
      · obtain ⟨rfl, rfl, rfl⟩ : _ ∧ _ ∧ _ := by simpa using h
        rw [show List.replicate (t.takeWhile (· == '\\')).length '\\' = t.takeWhile (· == '\\') from
          (List.eq_replicate_iff.2 ⟨rfl, fun b hb => by
            simpa using List.all_eq_true.1 (List.all_takeWhile (p := (· == '\\')) (l := t)) b hb⟩).symm,
          ← hd, List.takeWhile_append_dropWhile]
      · cases h
    · cases h
  · cases h

theorem search?_append {t before rest : Text} {n : Nat} {c : Char}
    (h : search? t = some (before, n, c, rest)) :
    before ++ '[' :: (List.replicate n '\\' ++ c :: rest) = t := by
  fun_induction search? t generalizing before with
  | case1 => cases h
  | case2 d t found hb =>
    obtain ⟨rfl, rfl⟩ := Prod.mk.inj (Option.some.inj h)
    exact bracket?_append hb
  | case3 d t _ ih =>
    obtain ⟨⟨b, f⟩, hs, he⟩ := Option.map_eq_some_iff.1 h
    obtain ⟨rfl, rfl⟩ := Prod.mk.inj he
    simp [ih hs]

theorem splitHtml_append (t : Text) : (splitHtml t).1 ++ (splitHtml t).2 = t := by
  simp only [splitHtml]
  split <;> simp

/-- **An opener and the texts around it make up the text.** -/
theorem find?_append {t : Text} {o : Opener} (h : find? t = some o) :
    o.before ++ o.text ++ o.rest = t := by
  obtain ⟨⟨before, n, c, rest⟩, hs, he⟩ := Option.map_eq_some_iff.1 h
  subst he
  have := splitHtml_append before
  simp only [text, textWith, List.append_assoc, List.cons_append, List.nil_append]
  rw [← List.append_assoc, this]
  exact search?_append hs

end Opener

end Stencil
