import Stencil.Proofs.Block.Change

/-!
# Proofs/Block/Forest — the block structure of a template

    forest ::= node*                     page ::= (node | stray `:` | stray `/`)*
    node   ::= `=` value | `@` array forest ending | arms ending
    arms   ::= `?` test forest (`:` test forest)*
    ending ::= `/` | `:` forest `/`

A tree is written as a list of directives, one for each tag (`Page.directives`), and stands for a
list of statements (`Page.outputs`).  `Open` is a page that is still being written, with the place
where the next tag goes; `Open.step` puts one directive there, or finds that it fits nowhere.  A
page is written by its own directives and by no others: `steps_page` and `directives_steps`.
-/

namespace Stencil

/-! ## Directives -/

/-- The lines of a tag: where it starts, and where its command stands. -/
structure Spot where
  start : Nat
  command : Nat
  deriving DecidableEq, Repr

/-- What a tag says: its command, and its expression if it has one. -/
structure Directive where
  spot : Spot
  command : Command
  value : Option Expr

/-! ## Trees -/

mutual

/-- Blocks and shown values, one after the other. -/
inductive Forest
  | empty
  | add (before : Forest) (last : Node)

/-- One block, or one shown value. -/
inductive Node
  | echo (spot : Spot) (value : Expr)
  | loop (spot : Spot) (array : Expr) (body : Forest) (ending : Ending)
  | branch (arms : Arms) (ending : Ending)

/-- The conditions of a branch, each with what it leads to. -/
inductive Arms
  | first (spot : Spot) (test : Expr) (body : Forest)
  | more (before : Arms) (spot : Spot) (test : Expr) (body : Forest)

/-- The end of a block, perhaps behind an else part. -/
inductive Ending
  | finish (spot : Spot)
  | otherwise (spot : Spot) (part : Forest) (finish : Spot)

end

/-- The top of a template, where else and end openers may also stray. -/
inductive Page
  | empty
  | node (before : Page) (last : Node)
  | strayElse (before : Page) (spot : Spot)
  | strayEnd (before : Page) (spot : Spot)

/-! ## What a tree is written as -/

mutual

/-- The directives of a forest. -/
def Forest.directives : Forest → List Directive
  | .empty => []
  | .add before last => before.directives ++ last.directives

/-- The directives of a node. -/
def Node.directives : Node → List Directive
  | .echo spot value => [⟨spot, .echo, some value⟩]
  | .loop spot array body ending =>
    ⟨spot, .loop, some array⟩ :: (body.directives ++ ending.directives)
  | .branch arms ending => arms.directives ++ ending.directives

/-- The directives of the conditions of a branch. -/
def Arms.directives : Arms → List Directive
  | .first spot test body => ⟨spot, .branch, some test⟩ :: body.directives
  | .more before spot test body =>
    before.directives ++ ⟨spot, .otherwise, some test⟩ :: body.directives

/-- The directives of the end of a block. -/
def Ending.directives : Ending → List Directive
  | .finish spot => [⟨spot, .finish, none⟩]
  | .otherwise spot part finish =>
    ⟨spot, .otherwise, none⟩ :: (part.directives ++ [⟨finish, .finish, none⟩])

end

/-- **The directives of a page.** -/
def Page.directives : Page → List Directive
  | .empty => []
  | .node before last => before.directives ++ last.directives
  | .strayElse before spot => before.directives ++ [⟨spot, .otherwise, none⟩]
  | .strayEnd before spot => before.directives ++ [⟨spot, .finish, none⟩]

/-! ## What a tree stands for

`n` is the number of loops whose blocks are open around the tree. -/

mutual

/-- The statements of a forest. -/
def Forest.statements (n : Nat) : Forest → List Statement
  | .empty => []
  | .add before last => before.statements n ++ last.statements n

/-- The statements of a node. -/
def Node.statements (n : Nat) : Node → List Statement
  | .echo _ value => [.echo value]
  | .loop _ array body ending =>
    .loop (n + 1) array :: (body.statements (n + 1) ++ ending.loopStatements (n + 1))
  | .branch arms ending => arms.statements n ++ ending.branchStatements n

/-- The statements of the conditions of a branch. -/
def Arms.statements (n : Nat) : Arms → List Statement
  | .first _ test body => .branch test :: body.statements n
  | .more before _ test body => before.statements n ++ .elseIf test :: body.statements n

/-- The statements that end a loop. -/
def Ending.loopStatements (n : Nat) : Ending → List Statement
  | .finish _ => [.endLoop]
  | .otherwise _ part _ => .loopElse :: (part.statements n ++ [.endBranch])

/-- The statements that end a branch. -/
def Ending.branchStatements (n : Nat) : Ending → List Statement
  | .finish _ => [.endBranch]
  | .otherwise _ part _ => .branchElse :: (part.statements n ++ [.endBranch])

end

/-- **What a page stands for**: its statements, and `none` for each opener that is copied. -/
def Page.outputs : Page → List (Option Statement)
  | .empty => []
  | .node before last => before.outputs ++ (last.statements 0).map some
  | .strayElse before _ => before.outputs ++ [none]
  | .strayEnd before _ => before.outputs ++ [none]

/-! ## Open pages -/

/-- A page that is still being written: the innermost open block, and what is around it. -/
inductive Open
  | page (page : Page)
  | loop (outer : Open) (spot : Spot) (array : Expr) (body : Forest)
  | loopElse (outer : Open) (spot : Spot) (array : Expr) (body : Forest) (otherwise : Spot)
      (part : Forest)
  | branch (outer : Open) (arms : Arms)
  | branchElse (outer : Open) (arms : Arms) (otherwise : Spot) (part : Forest)

/-- The tag that starts a branch. -/
def Arms.spot : Arms → Spot
  | .first spot _ _ => spot
  | .more before _ _ _ => before.spot

/-- Puts a node behind the last condition. -/
def Arms.add (last : Node) : Arms → Arms
  | .first spot test body => .first spot test (body.add last)
  | .more before spot test body => .more before spot test (body.add last)

theorem Arms.directives_add (arms : Arms) (last : Node) :
    (arms.add last).directives = arms.directives ++ last.directives := by
  cases arms with
  | first spot test body => rfl
  | more before spot test body =>
    simp only [Arms.add, Arms.directives, Forest.directives, List.append_assoc, List.cons_append]

namespace Open

/-- The tag that opened the innermost block. -/
def innermost? : Open → Option Spot
  | page _ => none
  | loop _ spot _ _ => some spot
  | loopElse _ spot _ _ _ _ => some spot
  | branch _ arms => some arms.spot
  | branchElse _ arms _ _ => some arms.spot

/-- Whether the innermost block is in its else part. -/
def isElse : Open → Bool
  | loopElse .. | branchElse .. => true
  | _ => false

/-- The number of loops whose blocks are open. -/
def loops : Open → Nat
  | page _ => 0
  | loop outer _ _ _ => outer.loops + 1
  | loopElse outer _ _ _ _ _ => outer.loops + 1
  | branch outer _ => outer.loops
  | branchElse outer _ _ _ => outer.loops

/-- The open blocks, innermost first. -/
def blocks : Open → List Block
  | page _ => []
  | loop outer spot _ _ => ⟨.loop, spot.start⟩ :: outer.blocks
  | loopElse outer spot _ _ otherwise _ =>
    ⟨.loopElse, otherwise.start⟩ :: ⟨.loop, spot.start⟩ :: outer.blocks
  | branch outer arms => ⟨.branch, arms.spot.start⟩ :: outer.blocks
  | branchElse outer arms otherwise _ =>
    ⟨.branchElse, otherwise.start⟩ :: ⟨.branch, arms.spot.start⟩ :: outer.blocks

/-- **The directives written so far.** -/
def directives : Open → List Directive
  | page p => p.directives
  | loop outer spot array body =>
    outer.directives ++ ⟨spot, .loop, some array⟩ :: body.directives
  | loopElse outer spot array body otherwise part =>
    outer.directives ++ ⟨spot, .loop, some array⟩ ::
      (body.directives ++ ⟨otherwise, .otherwise, none⟩ :: part.directives)
  | branch outer arms => outer.directives ++ arms.directives
  | branchElse outer arms otherwise part =>
    outer.directives ++ (arms.directives ++ ⟨otherwise, .otherwise, none⟩ :: part.directives)

/-- The statements of the innermost block so far. -/
def inside : Open → List Statement
  | page _ => []
  | loop outer _ array body => .loop (outer.loops + 1) array :: body.statements (outer.loops + 1)
  | loopElse outer _ array body _ part =>
    .loop (outer.loops + 1) array ::
      (body.statements (outer.loops + 1) ++ .loopElse :: part.statements (outer.loops + 1))
  | branch outer arms => arms.statements outer.loops
  | branchElse outer arms _ part =>
    arms.statements outer.loops ++ .branchElse :: part.statements outer.loops

/-- **What an open page stands for so far.** -/
def outputs : Open → List (Option Statement)
  | page p => p.outputs
  | o@(loop outer _ _ _) => outer.outputs ++ o.inside.map some
  | o@(loopElse outer _ _ _ _ _) => outer.outputs ++ o.inside.map some
  | o@(branch outer _) => outer.outputs ++ o.inside.map some
  | o@(branchElse outer _ _ _) => outer.outputs ++ o.inside.map some

/-! ### Writing one directive -/

/-- Puts a node at the open place. -/
def add (last : Node) : Open → Open
  | page p => page (p.node last)
  | loop outer spot array body => loop outer spot array (body.add last)
  | loopElse outer spot array body otherwise part =>
    loopElse outer spot array body otherwise (part.add last)
  | branch outer arms => branch outer (arms.add last)
  | branchElse outer arms otherwise part => branchElse outer arms otherwise (part.add last)

/-- Starts an else part or a further condition, or strays at the top. -/
def otherwise (spot : Spot) : Open → Option Expr → Option Open
  | page p, none => some (page (p.strayElse spot))
  | loop outer first array body, none => some (loopElse outer first array body spot .empty)
  | branch outer arms, none => some (branchElse outer arms spot .empty)
  | branch outer arms, some test => some (branch outer (.more arms spot test .empty))
  | _, _ => none

/-- Ends the innermost block, or strays at the top. -/
def finish (spot : Spot) : Open → Open
  | page p => page (p.strayEnd spot)
  | loop outer first array body => outer.add (.loop first array body (.finish spot))
  | loopElse outer first array body otherwise part =>
    outer.add (.loop first array body (.otherwise otherwise part spot))
  | branch outer arms => outer.add (.branch arms (.finish spot))
  | branchElse outer arms otherwise part =>
    outer.add (.branch arms (.otherwise otherwise part spot))

/-- **Writes one directive** at the open place, if it fits there. -/
def step (o : Open) : Directive → Option Open
  | ⟨spot, .echo, some value⟩ => some (o.add (.echo spot value))
  | ⟨spot, .loop, some array⟩ => some (loop o spot array .empty)
  | ⟨spot, .branch, some test⟩ => some (branch o (.first spot test .empty))
  | ⟨spot, .otherwise, value⟩ => o.otherwise spot value
  | ⟨spot, .finish, none⟩ => some (o.finish spot)
  | _ => none

/-- Writes directives one after the other. -/
def steps (o : Open) : List Directive → Option Open
  | [] => some o
  | d :: ds => (o.step d).bind fun o => o.steps ds

theorem steps_append (o : Open) (a b : List Directive) :
    o.steps (a ++ b) = (o.steps a).bind fun o => o.steps b := by
  induction a generalizing o with
  | nil => rfl
  | cons d a ih =>
    rw [List.cons_append, steps, steps, Option.bind_assoc]
    congr
    funext o'
    exact ih o'

theorem steps_singleton (o : Open) (d : Directive) : o.steps [d] = o.step d := by
  rw [steps]
  cases o.step d <;> rfl

/-! ### What is written stays -/

theorem directives_add (o : Open) (last : Node) :
    (o.add last).directives = o.directives ++ last.directives := by
  cases o with
  | page p => rfl
  | loop outer spot array body =>
    simp only [add, directives, Forest.directives, List.append_assoc, List.cons_append]
  | loopElse outer spot array body otherwise part =>
    simp only [add, directives, Forest.directives, List.append_assoc, List.cons_append]
  | branch outer arms => simp only [add, directives, Arms.directives_add, List.append_assoc]
  | branchElse outer arms otherwise part =>
    simp only [add, directives, Forest.directives, List.append_assoc, List.cons_append]

/-- The end of a block is written behind it. -/
theorem directives_finish (o : Open) (spot : Spot) :
    (o.finish spot).directives = o.directives ++ [⟨spot, .finish, none⟩] := by
  cases o with
  | page p => rfl
  | loop outer first array body =>
    simp only [finish, directives_add, directives, Node.directives, Ending.directives,
      List.append_assoc, List.cons_append]
  | loopElse outer first array body otherwise part =>
    simp only [finish, directives_add, directives, Node.directives, Ending.directives,
      List.append_assoc, List.cons_append]
  | branch outer arms =>
    simp only [finish, directives_add, directives, Node.directives, Ending.directives,
      List.append_assoc]
  | branchElse outer arms otherwise part =>
    simp only [finish, directives_add, directives, Node.directives, Ending.directives,
      List.append_assoc, List.cons_append]

/-- An else part or a condition is written behind what is open. -/
theorem directives_otherwise {o o' : Open} {spot : Spot} {value : Option Expr}
    (h : o.otherwise spot value = some o') :
    o'.directives = o.directives ++ [⟨spot, .otherwise, value⟩] := by
  unfold otherwise at h
  split at h
  · cases h
    rfl
  · cases h
    simp only [directives, Forest.directives, List.append_assoc, List.cons_append]
  · cases h
    simp only [directives, Forest.directives, List.append_assoc]
  · cases h
    simp only [directives, Arms.directives, Forest.directives, List.append_assoc]
  · cases h

/-- **A step writes its own directive.** -/
theorem directives_step {o o' : Open} {d : Directive} (h : o.step d = some o') :
    o'.directives = o.directives ++ [d] := by
  unfold step at h
  split at h
  · cases h
    exact directives_add o _
  · cases h
    rfl
  · cases h
    rfl
  · exact directives_otherwise h
  · cases h
    exact directives_finish o _
  · cases h

/-- **Steps write exactly their directives.** -/
theorem directives_steps {o o' : Open} {ds : List Directive} (h : o.steps ds = some o') :
    o'.directives = o.directives ++ ds := by
  induction ds generalizing o with
  | nil =>
    cases h
    exact (List.append_nil _).symm
  | cons d ds ih =>
    obtain ⟨middle, hd, hds⟩ := Option.bind_eq_some_iff.1 h
    rw [ih hds, directives_step hd, List.append_assoc]
    rfl

/-! ### A tree writes itself -/

/-- Puts the nodes of a forest at the open place. -/
def append (o : Open) : Forest → Open
  | .empty => o
  | .add before last => (o.append before).add last

/-- A place that takes nodes one by one takes a whole forest. -/
theorem append_empty (place : Forest → Open)
    (h : ∀ before last, (place before).add last = place (before.add last)) :
    ∀ f : Forest, (place .empty).append f = place f
  | .empty => rfl
  | .add before last => by rw [append, append_empty place h before, h]

mutual

/-- The directives of a forest write the forest. -/
theorem steps_forest (o : Open) : ∀ f : Forest, o.steps f.directives = some (o.append f)
  | .empty => rfl
  | .add before last => by
    rw [Forest.directives, steps_append, steps_forest o before]
    exact steps_node _ last

/-- The directives of a node write the node. -/
theorem steps_node (o : Open) : ∀ node : Node, o.steps node.directives = some (o.add node)
  | .echo _ _ => rfl
  | .loop spot array body ending => by
    have hbody : (loop o spot array .empty).steps body.directives =
        some (loop o spot array body) := by
      rw [steps_forest, append_empty (loop o spot array) fun _ _ => rfl]
    rw [Node.directives, steps]
    change (loop o spot array .empty).steps _ = _
    rw [steps_append, hbody]
    exact steps_loopEnding o spot array body ending
  | .branch arms ending => by
    rw [Node.directives, steps_append, steps_arms o arms]
    exact steps_branchEnding o arms ending

/-- The directives of conditions write the conditions. -/
theorem steps_arms (o : Open) : ∀ arms : Arms, o.steps arms.directives = some (branch o arms)
  | .first spot test body => by
    rw [Arms.directives, steps]
    change (branch o (.first spot test .empty)).steps _ = _
    rw [steps_forest, append_empty (fun body => branch o (.first spot test body)) fun _ _ => rfl]
  | .more before spot test body => by
    rw [Arms.directives, steps_append, steps_arms o before]
    change (branch o (.more before spot test .empty)).steps _ = _
    rw [steps_forest,
      append_empty (fun body => branch o (.more before spot test body)) fun _ _ => rfl]

/-- The directives at the end of a loop end it. -/
theorem steps_loopEnding (o : Open) (spot : Spot) (array : Expr) (body : Forest) :
    ∀ ending : Ending, (loop o spot array body).steps ending.directives =
      some (o.add (.loop spot array body ending))
  | .finish _ => rfl
  | .otherwise first part last => by
    rw [Ending.directives, steps]
    change (loopElse o spot array body first .empty).steps _ = _
    rw [steps_append, steps_forest, append_empty (loopElse o spot array body first) fun _ _ => rfl]
    rfl

/-- The directives at the end of a branch end it. -/
theorem steps_branchEnding (o : Open) (arms : Arms) : ∀ ending : Ending,
    (branch o arms).steps ending.directives = some (o.add (.branch arms ending))
  | .finish _ => rfl
  | .otherwise first part last => by
    rw [Ending.directives, steps]
    change (branchElse o arms first .empty).steps _ = _
    rw [steps_append, steps_forest, append_empty (branchElse o arms first) fun _ _ => rfl]
    rfl

end

/-- **A page is written by its own directives.** -/
theorem steps_page : ∀ p : Page, (page .empty).steps p.directives = some (page p)
  | .empty => rfl
  | .node before last => by
    rw [Page.directives, steps_append, steps_page before]
    exact steps_node _ last
  | .strayElse before spot => by
    rw [Page.directives, steps_append, steps_page before]
    rfl
  | .strayEnd before spot => by
    rw [Page.directives, steps_append, steps_page before]
    rfl

end Open

end Stencil
