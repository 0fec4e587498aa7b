import Stencil.Expr.Reader
import Stencil.Template.Mark
import Stencil.Template.Opener

/-!
# Template/Statement — what a tag does

A tag is a command and what it needs: `=` shows an expression, `@` loops over one, `?` branches on
one, `:` starts an else part, `/` ends a block.  The open blocks are a list, the innermost first; an
else part puts its own marker on top of its block, and ending a block takes both away.
-/

namespace Stencil

/-! ## Blocks -/

/-- What is open around a place. -/
inductive BlockKind
  | loop
  /-- The else part of the loop below. -/
  | loopElse
  | branch
  /-- The else part of the branch below. -/
  | branchElse
  deriving DecidableEq, Repr

namespace BlockKind

/-- How a message names a block. -/
def symbol : BlockKind → Text
  | loop => "@"
  | loopElse => "@:"
  | branch => "?"
  | branchElse => ":"

/-- Whether the marker stands for a block of its own. -/
def opensBlock : BlockKind → Bool
  | loop | branch => true
  | loopElse | branchElse => false

end BlockKind

/-- An open block: its kind, and the line of the tag that opened it. -/
structure Block where
  kind : BlockKind
  line : Nat
  deriving DecidableEq, Repr

namespace Block

/-- The number of loops around a place. -/
def loops (blocks : List Block) : Nat := blocks.countP fun b => b.kind = .loop

/-- The blocks after the innermost one is closed, with its else marker. -/
def close (blocks : List Block) : List Block :=
  (blocks.dropWhile fun b => !b.kind.opensBlock).tail

end Block

/-! ## Statements -/

/-- What a tag does. -/
inductive Statement
  | echo (value : Expr)
  /-- Opens the loop of a frame. -/
  | loop (frame : Nat) (array : Expr)
  | branch (test : Expr)
  | loopElse
  | elseIf (test : Expr)
  | branchElse
  /-- Ends a loop that has no else part. -/
  | endLoop
  /-- Ends a branch, or the else part of a loop. -/
  | endBranch

namespace Statement

/-- The code of a statement between the host's delimiters. -/
def body (r : Registry) : Statement → Text
  | echo value => value.code r
  | loop frame array =>
    let a := FrameVar.array.code frame
    let i := FrameVar.index.code frame
    let s := FrameVar.size.code frame
    let k := FrameVar.key.code frame
    let v := FrameVar.value.code frame
    a ++ "=" ++ array.code r ++ ";if (is_array(" ++ a ++ ") and !empty(" ++ a ++ ")) \x7b" ++ s
      ++ "=count(" ++ a ++ ");" ++ i ++ "=-1;foreach(" ++ a ++ " as " ++ k ++ "=>" ++ v
      ++ ") \x7b ++" ++ i ++ ";"
  | branch test => "if (" ++ test.code r ++ ") \x7b"
  | loopElse => "\x7d\x7d else \x7b"
  | elseIf test => "\x7d else if (" ++ test.code r ++ ") \x7b"
  | branchElse => "\x7d else \x7b"
  | endLoop => "\x7d\x7d"
  | endBranch => "\x7d"

/-- The host delimiter that starts a statement. -/
def delimiter : Statement → Text
  | echo _ => "<?="
  | _ => "<?php"

/-- The host statement, with the mark of its tag. -/
def code (r : Registry) (m : Mark) (s : Statement) : Text :=
  s.delimiter ++ " " ++ s.body r ++ " " ++ m.comment ++ " ?>"

end Statement

/-! ## Reading a tag -/

/-- The commands of a tag. -/
inductive Command
  | echo
  | loop
  | branch
  | otherwise
  | finish
  deriving DecidableEq, Repr

/-- The command of a character. -/
def Command.ofChar? (c : Char) : Option Command :=
  if c = '=' then some echo
  else if c = '@' then some loop
  else if c = '?' then some branch
  else if c = ':' then some otherwise
  else if c = '/' then some finish
  else none

/-- The text behind an HTML comment end, with blanks before it, if one is ahead. -/
def skipHtmlClose (t : Text) : Text :=
  (Text.dropPrefix? htmlClose (Text.trimStart t)).getD t

/-- The closing bracket of a tag, with the HTML comment end after it. -/
def closeTag (t : Text) : Except Stuck Text :=
  match Text.trimStart t with
  | [] => .error ⟨.endInsideTag, []⟩
  | c :: r => if c = ']' then .ok (skipHtmlClose r) else .error ⟨.unclosedTag c, c :: r⟩

/-- What an else tag does to the innermost block. -/
def readElse (r : Registry) (blocks : List Block) (line : Nat) (top : Block) (t : Text) :
    Except Stuck ((Statement × List Block) × Text) :=
  match top.kind with
  | .loopElse | .branchElse => .error ⟨.secondElse top.kind.symbol, t⟩
  | .loop => .ok ((.loopElse, ⟨.loopElse, line⟩ :: blocks), t)
  | .branch =>
    if (Text.trimStart t).head? = some ']' then
      .ok ((.branchElse, ⟨.branchElse, line⟩ :: blocks), t)
    else do
      let (test, rest) ← readTag ⟨r, Block.loops blocks⟩ t
      return ((.elseIf test, blocks), rest)

/-- The tag of a command that opened on `line`, up to its closing bracket, and the blocks after it.
An else or end tag outside any block is no tag. -/
def readCommand (r : Registry) (blocks : List Block) (line : Nat) (command : Command) (t : Text) :
    Except Stuck (Option ((Statement × List Block) × Text)) :=
  match command with
  | .echo => do
    let (value, rest) ← readTag ⟨r, Block.loops blocks⟩ t
    return some ((.echo value, blocks), rest)
  | .loop => do
    let (array, rest) ← readTag ⟨r, Block.loops blocks⟩ t
    return some ((.loop (Block.loops blocks + 1) array, ⟨.loop, line⟩ :: blocks), rest)
  | .branch => do
    let (test, rest) ← readTag ⟨r, Block.loops blocks⟩ t
    return some ((.branch test, ⟨.branch, line⟩ :: blocks), rest)
  | .otherwise =>
    match blocks with
    | [] => .ok none
    | top :: _ => do
      let found ← readElse r blocks line top t
      return some found
  | .finish =>
    match blocks with
    | [] => .ok none
    | top :: _ =>
      .ok (some ((if top.kind = .loop then .endLoop else .endBranch, Block.close blocks), t))

/-- **The tag of a command**, with its closing bracket. -/
def readStatement (r : Registry) (blocks : List Block) (line : Nat) (command : Command) (t : Text) :
    Except Stuck (Option ((Statement × List Block) × Text)) := do
  match ← readCommand r blocks line command t with
  | none => return none
  | some (found, rest) =>
    let rest ← closeTag rest
    return some (found, rest)

theorem skipHtmlClose_suffix (t : Text) : skipHtmlClose t <:+ t := by
  unfold skipHtmlClose
  cases h : Text.dropPrefix? htmlClose (Text.trimStart t) with
  | none => exact List.suffix_refl t
  | some r =>
    exact List.IsSuffix.trans ⟨_, Token.dropPrefix?_append h⟩ (Text.trimStart_suffix t)

theorem closeTag_suffix {t rest : Text} (h : closeTag t = .ok rest) : rest <:+ t := by
  unfold closeTag at h
  split at h
  · cases h
  · next c r hc =>
    split at h
    · obtain rfl := Except.ok.inj h
      exact (skipHtmlClose_suffix r).trans (Shorter.of_trimStart hc).1
    · cases h

theorem readTag_suffix {s : Scope} {t rest : Text} {e : Expr} (h : readTag s t = .ok (e, rest)) :
    rest <:+ t := (readExpr_shorter h).1

theorem readElse_suffix {r : Registry} {blocks : List Block} {line : Nat} {top : Block}
    {t rest : Text} {found : Statement × List Block}
    (h : readElse r blocks line top t = .ok (found, rest)) : rest <:+ t := by
  unfold readElse at h
  split at h
  · cases h
  · cases h
  · obtain ⟨-, rfl⟩ := Prod.mk.inj (Except.ok.inj h); exact List.suffix_refl t
  · split at h
    · obtain ⟨-, rfl⟩ := Prod.mk.inj (Except.ok.inj h); exact List.suffix_refl t
    · obtain ⟨⟨test, r1⟩, ht, hr⟩ := bind_eq_ok_iff.1 h
      obtain ⟨-, rfl⟩ := Prod.mk.inj (Except.ok.inj hr)
      exact readTag_suffix ht

theorem readCommand_suffix {r : Registry} {blocks : List Block} {line : Nat} {command : Command}
    {t rest : Text} {found : Statement × List Block}
    (h : readCommand r blocks line command t = .ok (some (found, rest))) : rest <:+ t := by
  unfold readCommand at h
  split at h
  · obtain ⟨⟨e, r1⟩, ht, hr⟩ := bind_eq_ok_iff.1 h
    obtain ⟨-, rfl⟩ := Prod.mk.inj (Option.some.inj (Except.ok.inj hr))
    exact readTag_suffix ht
  · obtain ⟨⟨e, r1⟩, ht, hr⟩ := bind_eq_ok_iff.1 h
    obtain ⟨-, rfl⟩ := Prod.mk.inj (Option.some.inj (Except.ok.inj hr))
    exact readTag_suffix ht
  · obtain ⟨⟨e, r1⟩, ht, hr⟩ := bind_eq_ok_iff.1 h
    obtain ⟨-, rfl⟩ := Prod.mk.inj (Option.some.inj (Except.ok.inj hr))
    exact readTag_suffix ht
  · split at h
    · cases h
    · obtain ⟨⟨found', r1⟩, ht, hr⟩ := bind_eq_ok_iff.1 h
      obtain ⟨-, rfl⟩ := Prod.mk.inj (Option.some.inj (Except.ok.inj hr))
      exact readElse_suffix ht
  · split at h
    · cases h
    · obtain ⟨-, rfl⟩ := Prod.mk.inj (Option.some.inj (Except.ok.inj h))
      exact List.suffix_refl _

/-- **Reading a tag moves forward.** -/
theorem readStatement_suffix {r : Registry} {blocks : List Block} {line : Nat} {command : Command}
    {t rest : Text} {found : Statement × List Block}
    (h : readStatement r blocks line command t = .ok (some (found, rest))) : rest <:+ t := by
  obtain ⟨result, hc, hr⟩ := bind_eq_ok_iff.1 h
  cases result with
  | none => cases hr
  | some p =>
    obtain ⟨found', r1⟩ := p
    obtain ⟨r2, ht, hr⟩ := bind_eq_ok_iff.1 hr
    obtain ⟨-, rfl⟩ := Prod.mk.inj (Option.some.inj (Except.ok.inj hr))
    exact (closeTag_suffix ht).trans (readCommand_suffix hc)

end Stencil
