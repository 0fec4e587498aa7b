import Mathlib.Logic.Relation
import Stencil.Proofs.Expr.Move
import Stencil.Proofs.Expr.OnePass
import Stencil.Proofs.Template.Search

/-!
# Proofs/Template/Machine — a compiler that counts bytes and levels

    guard ──▸ scan ──▸ express ──▸ leave ──▸ close ──▸ scan ──▸ … ──▸ done
               │         │  ▲        │                             ▲
               │         └──┘        └──fault──▸ report ───────────┘
               └──comment, escape──▸ scan

The compiler is a function of the text.  The machine is what it does step by step, with a cursor, a
counter of the levels it has entered, and the expressions around the one it reads.  It passes the
text by bytes, cuts it by bytes, and refuses to do so where no edge is: a step that would cut within
a character, or count below zero, is no step.  Each turn of its two loops, that over the openers of a
template and that over the tokens of an expression, is a step from `scan` or from `express`.
-/

namespace Stencil

/-! ## Tags -/

namespace Command

/-- What a tag needs before it is closed. -/
inductive Plan
  /-- An expression. -/
  | express
  /-- Nothing: its statement, and the blocks after it. -/
  | settle (statement : Statement) (blocks : List Block)
  /-- It is no tag. -/
  | stray
  | fail (fault : Fault)

/-- What the tag of a command needs inside blocks, with the text behind its opener. -/
def plan (blocks : List Block) (line : Nat) (t : Text) : Command → Plan
  | echo | loop | branch => .express
  | otherwise =>
    match blocks with
    | [] => .stray
    | top :: _ =>
      match top.kind with
      | .loopElse | .branchElse => .fail (.secondElse top.kind.symbol)
      | .loop => .settle .loopElse (⟨.loopElse, line⟩ :: blocks)
      | .branch =>
        if (Text.trimStart t).head? = some ']' then
          .settle .branchElse (⟨.branchElse, line⟩ :: blocks)
        else .express
  | finish =>
    match blocks with
    | [] => .stray
    | top :: _ => .settle (if top.kind = .loop then .endLoop else .endBranch) (Block.close blocks)

/-- The statement of a tag with an expression, and the blocks after it. -/
def complete (blocks : List Block) (line : Nat) (e : Expr) : Command → Statement × List Block
  | echo => (.echo e, blocks)
  | loop => (.loop (Block.loops blocks + 1) e, ⟨.loop, line⟩ :: blocks)
  | branch => (.branch e, ⟨.branch, line⟩ :: blocks)
  | otherwise | finish => (.elseIf e, blocks)

/-- **A tag is read as it is planned.** -/
theorem readCommand_eq (r : Registry) (blocks : List Block) (line : Nat) (command : Command)
    (t : Text) :
    readCommand r blocks line command t =
      match command.plan blocks line t with
      | .express =>
        readTag ⟨r, Block.loops blocks⟩ t >>= fun found =>
          .ok (some (command.complete blocks line found.1, found.2))
      | .settle statement blocks => .ok (some ((statement, blocks), t))
      | .stray => .ok none
      | .fail fault => .error ⟨fault, t⟩ := by
  cases command with
  | echo | loop | branch => rfl
  | finish => cases blocks <;> rfl
  | otherwise =>
    cases blocks with
    | nil => rfl
    | cons top blocks =>
      obtain ⟨kind, line'⟩ := top
      cases kind with
      | loop | loopElse | branchElse => rfl
      | branch =>
        unfold readCommand plan
        dsimp only
        unfold readElse
        dsimp only
        split
        · rfl
        · cases readTag _ t <;> rfl

end Command

/-- An expression that stands for its own code. -/
def Expr.verbatim (code : Text) : Expr := .plain (.one none (.number code))

/-- A statement needs no more of its expression than the code. -/
theorem Command.code_complete (r : Registry) (blocks : List Block) (line : Nat) (e : Expr)
    (command : Command) (mark : Mark) :
    ((command.complete blocks line (.verbatim (e.code r))).1.code r mark =
        (command.complete blocks line e).1.code r mark) ∧
      (command.complete blocks line (.verbatim (e.code r))).2 =
        (command.complete blocks line e).2 := by
  cases command <;> exact ⟨rfl, rfl⟩

/-! ## Machines -/

/-- An expression on the way: its context, and what is known of it. -/
structure Level where
  ctx : Context
  draft : Draft := {}

/-- The tag that is read: the offset and the line at which it starts, and its command. -/
structure OpenTag where
  first : Nat
  line : Nat
  command : Command

/-- What a machine is about to do. -/
inductive Task
  /-- To look for host tags. -/
  | guard
  /-- To look for an opener. -/
  | scan
  /-- To go on with an expression of a tag, within the expressions around it. -/
  | express (tag : OpenTag) (level : Level) (outer : List Level)
  /-- To leave an expression, with its code or a fault. -/
  | leave (tag : OpenTag) (ctx : Context) (result : Except Fault Text) (outer : List Level)
  /-- To close the tag of a statement. -/
  | close (tag : OpenTag) (statement : Statement)
  /-- To report a fault of a tag. -/
  | report (tag : OpenTag) (fault : Fault)
  | done (result : Except Diagnostic Text)

/-- A compiler at work. -/
structure Machine where
  cursor : Cursor
  /-- The open blocks. -/
  blocks : List Block
  /-- The counter of the levels that are entered. -/
  nesting : Nat
  /-- The body that is written. -/
  out : Text
  task : Task

namespace Cursor

/-- Moves over the end of an HTML comment, with blanks before it, if one is ahead. -/
def passHtmlClose? (c : Cursor) : Option Cursor :=
  let trimmed := Text.trimStart c.rest
  if htmlClose.isPrefixOf trimmed then
    (c.pass? (c.rest.size - trimmed.size + htmlClose.size)).map Prod.snd
  else some c

/-- Moves over the rest of a comment, or to the end. -/
def passComment? (c : Cursor) : Option Cursor :=
  match Bytes.find? (Text.utf8 "*]") c.rest.utf8 with
  | some pos => (c.pass? (pos + 2)).bind fun (_, c) => c.passHtmlClose?
  | none => (c.pass? c.rest.size).map Prod.snd

end Cursor

namespace Machine

/-- The machine before a source. -/
def start (source : Text) : Machine := ⟨.start (Source.normalize source), [], 0, [], .guard⟩

/-- A template with a host tag is refused. -/
def guard (c : Compiler) (m : Machine) : Option Machine :=
  (HostTag.seek? c.shortTags m.cursor.rest).map fun
    | some (tag, line) =>
      { m with task := .done (.error ((Fault.hostTag tag).diagnostic.withLine line)) }
    | none => { m with task := .scan }

/-- The end of a template without another opener. -/
def finish (m : Machine) : Option Machine :=
  (m.cursor.pass? m.cursor.rest.size).map fun (passed, cursor) =>
    let out := m.out ++ passed
    { m with
      cursor := cursor
      out := out
      task := .done (match needClosed m.blocks with
        | .error d => .error d
        | .ok () => .ok out) }

/-- A tag behind its opener. -/
def begin (m : Machine) (tag : OpenTag) (opener : Text) : Machine :=
  match tag.command.plan m.blocks tag.line m.cursor.rest with
  | .express => { m with task := .express tag { ctx := .tag } [] }
  | .settle statement blocks => { m with blocks := blocks, task := .close tag statement }
  | .stray => { m with out := m.out ++ opener, task := .scan }
  | .fail fault => { m with task := .report tag fault }

/-- An opener ahead: an escape, a comment, or a tag. -/
def enter (m : Machine) (found : Opener.InBytes) : Option Machine :=
  (m.cursor.pass? found.literal).bind fun (literal, first) =>
  (first.pass? found.size).bind fun (opener, cursor) =>
    let m := { m with cursor := cursor, out := m.out ++ literal }
    if 0 < found.backslashes then
      (opener.front? (found.html + 1)).bind fun front =>
      (opener.back? (found.html + 2)).map fun back =>
        { m with out := m.out ++ (front ++ back), task := .scan }
    else
      match Command.ofChar? (Char.ofNat found.command.toNat) with
      | none => cursor.passComment?.map fun cursor => { m with cursor := cursor, task := .scan }
      | some command => some (m.begin ⟨first.offset, first.line, command⟩ opener)

/-- A turn of the loop over the openers. -/
def scan (m : Machine) : Option Machine :=
  (Opener.InBytes.find? m.cursor.rest).bind fun
    | none => m.finish
    | some found => m.enter found

/-- What an expression inside blocks can refer to. -/
def scope (c : Compiler) (blocks : List Block) : Scope := ⟨c.registry, Block.loops blocks⟩

/-- What becomes of an expression after a move.  Where it enters another one the counter is checked,
and counted up. -/
def follow (m : Machine) (tag : OpenTag) (ctx : Context) (outer : List Level) :
    Draft.Move → Machine
  | .fail fault => { m with task := .leave tag ctx (.error fault) outer }
  | .stay draft => { m with task := .express tag ⟨ctx, draft⟩ outer }
  | .enter draft child =>
    if maxNesting ≤ m.nesting then
      { m with task := .leave tag ctx (.error (.tooDeep maxNesting)) outer }
    else
      { m with
        nesting := m.nesting + 1
        task := .express tag { ctx := child } (⟨ctx, draft⟩ :: outer) }
  | .finish code => { m with task := .leave tag ctx (.ok code) outer }

/-- A turn of the loop over the tokens of an expression. -/
def express (c : Compiler) (m : Machine) (tag : OpenTag) (level : Level) (outer : List Level) :
    Option Machine :=
  m.cursor.passBlanks?.bind fun cursor =>
    let (n, move) := level.draft.move (scope c m.blocks) level.ctx cursor.rest
    (cursor.pass? n).map fun (_, cursor) =>
      { m with cursor := cursor }.follow tag level.ctx outer move

/-- An expression is left: one level is counted down, unless it is that of the tag. -/
def leave (m : Machine) (tag : OpenTag) (ctx : Context) (result : Except Fault Text) :
    List Level → Option Machine
  | [] =>
    match result with
    | .error fault => some { m with task := .report tag fault }
    | .ok code =>
      let (statement, blocks) := tag.command.complete m.blocks tag.line (.verbatim code)
      some { m with blocks := blocks, task := .close tag statement }
  | level :: outer =>
    if m.nesting = 0 then none
    else
      match result with
      | .error fault =>
        some { m with nesting := m.nesting - 1, task := .leave tag level.ctx (.error fault) outer }
      | .ok code =>
        some { m with
          nesting := m.nesting - 1
          task := .express tag ⟨level.ctx, level.draft.receive ctx code⟩ outer }

/-- The closing bracket of a tag. -/
def close (c : Compiler) (m : Machine) (tag : OpenTag) (statement : Statement) : Option Machine :=
  m.cursor.passBlanks?.bind fun cursor =>
    match cursor.rest with
    | [] => some { m with cursor := cursor, task := .report tag .endInsideTag }
    | ch :: _ =>
      if ch = ']' then
        (cursor.pass? 1).bind fun (_, cursor) => cursor.passHtmlClose?.bind fun cursor =>
        (cursor.slice? tag.first cursor.offset).map fun raw =>
          { m with
            cursor := cursor
            out := m.out ++ statement.code c.registry ⟨tag.line, raw⟩
            task := .scan }
      else some { m with cursor := cursor, task := .report tag (.unclosedTag ch) }

/-- The report about a tag. -/
def report (m : Machine) (tag : OpenTag) (fault : Fault) : Option Machine :=
  (m.cursor.slice? tag.first (m.cursor.offset + excerptSize m.cursor.rest)).map fun raw =>
    { m with task := .done (.error ((fault.diagnostic.withLine m.cursor.line).withTag raw)) }

/-- **A step.**  There is none where a cut would miss an edge or the counter fall below zero; a
machine that is done stays as it is. -/
def step (c : Compiler) (m : Machine) : Option Machine :=
  match m.task with
  | .guard => m.guard c
  | .scan => m.scan
  | .express tag level outer => m.express c tag level outer
  | .leave tag ctx result outer => m.leave tag ctx result outer
  | .close tag statement => m.close c tag statement
  | .report tag fault => m.report tag fault
  | .done _ => some m

/-- One machine comes after another. -/
def Reaches (c : Compiler) : Machine → Machine → Prop :=
  Relation.ReflTransGen fun m m' => m.step c = some m'

end Machine

end Stencil
