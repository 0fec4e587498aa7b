import Stencil.Proofs.Block.Forest
import Stencil.Proofs.Block.Nesting
import Stencil.Proofs.Template.Segments

/-!
# Proofs/Block/Exact — a template compiles exactly when its tags form a page

The scanner's open blocks are those of an open page, and each tag that it reads writes one directive
there (`step_of_change`).  So a template whose tags are right, each by itself, compiles if and only
if its directives are those of a page, and its statements are then those of the page:
`compile_iff_page`.
-/

namespace Stencil

namespace Open

/-! ## The blocks and statements of an open page -/

theorem loops_eq (o : Open) : o.loops = Block.loops o.blocks := by
  induction o with
  | page p => rfl
  | loop outer spot array body ih =>
    rw [blocks, Block.loops_cons, ← ih]
    rfl
  | loopElse outer spot array body otherwise part ih =>
    rw [blocks, Block.loops_cons, Block.loops_cons, ← ih]
    rfl
  | branch outer arms ih =>
    rw [blocks, Block.loops_cons, ← ih]
    rfl
  | branchElse outer arms otherwise part ih =>
    rw [blocks, Block.loops_cons, Block.loops_cons, ← ih]
    rfl

theorem blocks_add (o : Open) (last : Node) : (o.add last).blocks = o.blocks := by
  cases o with
  | branch outer arms => cases arms <;> rfl
  | _ => rfl

/-- **A node adds its own statements.** -/
theorem outputs_add (o : Open) (last : Node) :
    (o.add last).outputs = o.outputs ++ (last.statements o.loops).map some := by
  cases o with
  | page p => rfl
  | loop outer spot array body =>
    simp only [add, outputs, inside, Forest.statements, loops, List.map_cons, List.map_append,
      List.append_assoc, List.cons_append]
  | loopElse outer spot array body otherwise part =>
    simp only [add, outputs, inside, Forest.statements, loops, List.map_cons, List.map_append,
      List.append_assoc, List.cons_append]
  | branch outer arms =>
    cases arms <;>
      simp only [add, Arms.add, outputs, inside, Arms.statements, Forest.statements, loops,
        List.map_cons, List.map_append, List.append_assoc, List.cons_append]
  | branchElse outer arms otherwise part =>
    simp only [add, outputs, inside, Forest.statements, loops, List.map_cons, List.map_append,
      List.append_assoc, List.cons_append]

/-- The end of a block closes it. -/
theorem blocks_finish (o : Open) (spot : Spot) : (o.finish spot).blocks = Block.close o.blocks := by
  cases o with
  | page p => rfl
  | _ => exact blocks_add _ _

/-- **The end of a block adds one statement**, which tells loops from the rest. -/
theorem outputs_finish {o : Open} {top : Block} {blocks : List Block}
    (h : o.blocks = top :: blocks) (spot : Spot) :
    (o.finish spot).outputs =
      o.outputs ++ [some (if top.kind = .loop then .endLoop else .endBranch)] := by
  cases o with
  | page p => cases h
  | loop outer first array body =>
    obtain ⟨rfl, -⟩ := List.cons.inj h
    rw [finish, outputs_add, if_pos rfl]
    simp only [outputs, inside, Node.statements, Ending.loopStatements, List.map_cons,
      List.map_append, List.append_assoc, List.cons_append, List.map_nil]
  | loopElse outer first array body otherwise part =>
    obtain ⟨rfl, -⟩ := List.cons.inj h
    rw [finish, outputs_add, if_neg (by simp)]
    simp only [outputs, inside, Node.statements, Ending.loopStatements, List.map_cons,
      List.map_append, List.append_assoc, List.cons_append, List.map_nil]
  | branch outer arms =>
    obtain ⟨rfl, -⟩ := List.cons.inj h
    rw [finish, outputs_add, if_neg (by simp)]
    simp only [outputs, inside, Node.statements, Ending.branchStatements, List.map_cons,
      List.map_append, List.append_assoc, List.map_nil]
  | branchElse outer arms otherwise part =>
    obtain ⟨rfl, -⟩ := List.cons.inj h
    rw [finish, outputs_add, if_neg (by simp)]
    simp only [outputs, inside, Node.statements, Ending.branchStatements, List.map_cons,
      List.map_append, List.append_assoc, List.cons_append, List.map_nil]

/-! ## Tags are steps -/

/-- **A tag that changes the blocks writes its directive** at the open place. -/
theorem step_of_change {o : Open} {line k : Nat} {after : List Block} {s : Statement}
    (h : Change line o.blocks s after) :
    ∃ o', o.step ⟨⟨line, k⟩, s.command, s.value?⟩ = some o' ∧ o'.blocks = after ∧
      o'.outputs = o.outputs ++ [some s] := by
  generalize hb : o.blocks = before at h
  cases h with
  | echo value => exact ⟨_, rfl, (blocks_add o _).trans hb, outputs_add o _⟩
  | loop array =>
    refine ⟨_, rfl, congrArg (_ :: ·) hb, ?_⟩
    rw [← hb, ← loops_eq]
    rfl
  | branch test => exact ⟨_, rfl, congrArg (_ :: ·) hb, rfl⟩
  | loopElse start blocks =>
    cases o with
    | loop outer spot array body =>
      refine ⟨_, rfl, congrArg (_ :: ·) hb, ?_⟩
      simp only [outputs, inside, Forest.statements, List.map_cons, List.map_append,
        List.append_assoc, List.cons_append]
      rfl
    | _ => cases hb
  | elseIf start blocks test =>
    cases o with
    | branch outer arms =>
      refine ⟨_, rfl, hb, ?_⟩
      simp only [outputs, inside, Arms.statements, Forest.statements, List.map_cons,
        List.map_append, List.append_assoc]
      rfl
    | _ => cases hb
  | branchElse start blocks =>
    cases o with
    | branch outer arms =>
      refine ⟨_, rfl, congrArg (_ :: ·) hb, ?_⟩
      simp only [outputs, inside, Forest.statements, List.map_cons,
        List.map_append, List.append_assoc]
      rfl
    | _ => cases hb
  | endLoop start blocks =>
    refine ⟨_, rfl, ?_, outputs_finish hb _⟩
    rw [blocks_finish, hb]
    rfl
  | endBranch top blocks hk =>
    refine ⟨_, rfl, ?_, ?_⟩
    · rw [blocks_finish, hb]
    · rw [outputs_finish hb, if_neg hk]

end Open

/-! ## The directives of a template -/

/-- Where the tag behind an opener stands, if the opener starts on `start`. -/
def Opener.spot (o : Opener) (start : Nat) : Spot := ⟨start, start + o.text.newlines⟩

/-- What a segment behind an opener says. -/
def Segment.directives (o : Opener) (start : Nat) : Segment → List Directive
  | tag _ _ statement => [⟨o.spot start, statement.command, statement.value?⟩]
  | stray _ => [⟨o.spot start, if o.command = ':' then .otherwise else .finish, none⟩]
  | plain _ | escaped _ | comment _ => []

/-- What segments stand for: statements, and `none` for each opener that is copied. -/
def outputs (segments : List Segment) : List (Option Statement) :=
  segments.filterMap fun
    | .tag _ _ statement => some (some statement)
    | .stray _ => some none
    | .plain _ | .escaped _ | .comment _ => none

/-- **The tags of a template are right, each by itself**, and say `ds`: all of them are read, up to
an else tag that stands in an else part, of which nothing more is read. -/
inductive Trace (r : Registry) : List Block → Nat → Text → List Directive → Prop
  | done {blocks : List Block} {line : Nat} {t : Text} (h : Opener.find? t = none) :
      Trace r blocks line t []
  | read {blocks after : List Block} {line : Nat} {t rest : Text} {o : Opener} {segment : Segment}
      {ds : List Directive} (h : Opener.find? t = some o)
      (hr : readSegment r blocks (line + o.before.newlines) o = .ok ((segment, after), rest))
      (others : Trace r after (line + o.before.newlines + segment.source.newlines) rest ds) :
      Trace r blocks line t (segment.directives o (line + o.before.newlines) ++ ds)
  | refused {top : Block} {blocks : List Block} {line : Nat} {t : Text} {o : Opener}
      (value : Option Expr) (h : Opener.find? t = some o) (hb : o.backslashes = 0)
      (hc : o.command = ':') (hk : top.kind.opensBlock = false) :
      Trace r (top :: blocks) line t [⟨o.spot (line + o.before.newlines), .otherwise, value⟩]

/-- **The lines of the tags are lines of the text.** -/
theorem Trace.line_le {r : Registry} {blocks : List Block} {line : Nat} {t : Text}
    {ds : List Directive} (h : Trace r blocks line t ds) :
    ∀ x ∈ ds, x.spot.start ≤ x.spot.command ∧ x.spot.command ≤ line + t.newlines := by
  -- The spot of an opener lies between its start and the end of the text.
  have hspot : ∀ {line : Nat} {t : Text} {o : Opener}, Opener.find? t = some o →
      line + o.before.newlines + o.text.newlines + o.rest.newlines = line + t.newlines := by
    intro line t o ho
    rw [← Opener.find?_append ho, Text.newlines_append, Text.newlines_append]
    omega
  induction h with
  | done => exact nofun
  | @read _ _ line t rest o segment ds ho hr _ ih =>
    have hlines := @hspot line _ _ ho
    have hsource := congrArg Text.newlines (fits_of_readSegment ho hr).1
    rw [Text.newlines_append, Text.newlines_append] at hsource
    intro x hx
    rcases List.mem_append.1 hx with hx | hx
    · have heq : x.spot = o.spot (line + o.before.newlines) := by
        cases segment with
        | tag | stray => rw [List.mem_singleton.1 hx]
        | plain | escaped | comment => cases hx
      rw [heq, Opener.spot]
      dsimp only
      omega
    · have := ih x hx
      omega
  | @refused _ _ line _ o _ ho =>
    have hlines := @hspot line _ _ ho
    intro x hx
    rw [List.mem_singleton.1 hx, Opener.spot]
    dsimp only
    omega

/-- A tag that is none stands outside any block. -/
theorem blocks_of_readStatement_none {r : Registry} {blocks : List Block} {line : Nat}
    {command : Command} {t : Text} (h : readStatement r blocks line command t = .ok none) :
    blocks = [] ∧ (command = .otherwise ∨ command = .finish) := by
  obtain ⟨result, hc, hr⟩ := bind_eq_ok_iff.1 h
  cases result with
  | some found =>
    obtain ⟨r1, -, hr⟩ := bind_eq_ok_iff.1 hr
    cases hr
  | none =>
  cases command with
  | echo => obtain ⟨_, -, hr⟩ := bind_eq_ok_iff.1 hc; cases hr
  | loop => obtain ⟨_, -, hr⟩ := bind_eq_ok_iff.1 hc; cases hr
  | branch => obtain ⟨_, -, hr⟩ := bind_eq_ok_iff.1 hc; cases hr
  | otherwise =>
    cases blocks with
    | nil => exact ⟨rfl, .inl rfl⟩
    | cons top blocks => obtain ⟨_, -, hr⟩ := bind_eq_ok_iff.1 hc; cases hr
  | finish =>
    cases blocks with
    | nil => exact ⟨rfl, .inr rfl⟩
    | cons top blocks => cases hc

/-- The command of a stray opener. -/
theorem command_of_ofChar? {c : Char} {command : Command} (h : Command.ofChar? c = some command)
    (hk : command = .otherwise ∨ command = .finish) :
    (if c = ':' then Command.otherwise else .finish) = command := by
  by_cases hc : c = ':'
  · subst hc
    exact Option.some.inj h
  · rw [if_neg hc]
    rcases hk with rfl | rfl
    · unfold Command.ofChar? at h
      rw [if_neg hc] at h
      repeat (split at h; · cases h)
      cases h
    · rfl

namespace Open

/-- **A segment that was read writes its directives.** -/
theorem steps_of_readSegment {r : Registry} {o : Open} {after : List Block} {start : Nat}
    {opener : Opener} {segment : Segment} {rest : Text}
    (h : readSegment r o.blocks start opener = .ok ((segment, after), rest)) :
    ∃ o', o.steps (segment.directives opener start) = some o' ∧ o'.blocks = after ∧
      o'.outputs = o.outputs ++ Stencil.outputs [segment] := by
  simp only [readSegment] at h
  split at h
  · cases h
    exact ⟨o, rfl, rfl, (List.append_nil _).symm⟩
  split at h
  · cases h
    exact ⟨o, rfl, rfl, (List.append_nil _).symm⟩
  next command hcommand =>
  split at h
  · cases h
  · next hs =>
    cases h
    obtain ⟨hempty, hk⟩ := blocks_of_readStatement_none hs
    cases o with
    | page p =>
      simp only [Segment.directives, command_of_ofChar? hcommand hk]
      rcases hk with rfl | rfl
      · exact ⟨_, rfl, rfl, rfl⟩
      · exact ⟨_, rfl, rfl, rfl⟩
    | _ => cases hempty
  · next hs =>
    cases h
    obtain ⟨o', hstep, hblocks, houtputs⟩ :=
      step_of_change (k := start + opener.text.newlines) (change_of_readStatement hs).2.1
    refine ⟨o', ?_, hblocks, houtputs⟩
    rw [Segment.directives, steps_singleton]
    exact hstep

end Open

/-! ## Scanning -/

section Scan

variable {r : Registry} {blocks after : List Block} {line : Nat} {t rest : Text} {o : Opener}
  {segment : Segment}

theorem scan_of_find?_none (h : Opener.find? t = none) :
    scan r blocks line t = (needClosed blocks).map fun _ => [.plain t] := by
  rw [scan]
  split
  · cases needClosed blocks <;> rfl
  · next o ho => rw [h] at ho; cases ho

theorem scan_of_error {d : Diagnostic} (h : Opener.find? t = some o)
    (hr : readSegment r blocks (line + o.before.newlines) o = .error d) :
    scan r blocks line t = .error d := by
  rw [scan]
  split
  · next ho => rw [h] at ho; cases ho
  · next o' ho =>
    obtain rfl : o' = o := Option.some.inj (ho.symm.trans h)
    dsimp only
    split
    · next d' hd => exact congrArg _ (Except.error.inj (hd.symm.trans hr))
    · next hd => rw [hr] at hd; cases hd

theorem scan_of_ok (h : Opener.find? t = some o)
    (hr : readSegment r blocks (line + o.before.newlines) o = .ok ((segment, after), rest)) :
    scan r blocks line t =
      (scan r after (line + o.before.newlines + segment.source.newlines) rest).map
        fun segments => .plain o.before :: segment :: segments := by
  rw [scan]
  split
  · next ho => rw [h] at ho; cases ho
  · next o' ho =>
    obtain rfl : o' = o := Option.some.inj (ho.symm.trans h)
    dsimp only
    split
    · next hd => rw [hr] at hd; cases hd
    · next segment' after' rest' hd =>
      cases hr.symm.trans hd
      split
      · next hs => rw [hs]; rfl
      · next hs => rw [hs]; rfl

/-- A tag that was read is a segment. -/
theorem readSegment_of_readStatement {command : Command} {s : Statement} (hb : o.backslashes = 0)
    (hc : Command.ofChar? o.command = some command)
    (h : readStatement r blocks line command o.rest = .ok (some ((s, after), rest))) :
    readSegment r blocks line o =
      .ok ((.tag (Text.upTo (o.text ++ o.rest) rest) line s, after), rest) := by
  simp only [readSegment, hb, hc, h, Nat.lt_irrefl, if_false]

/-- **An else tag in an else part is refused**, before any more of it is read. -/
theorem readSegment_refused (r : Registry) (blocks : List Block) {top : Block}
    (hb : o.backslashes = 0) (hc : o.command = ':') (hk : top.kind.opensBlock = false)
    (start : Nat) :
    ∃ d, readSegment r (top :: blocks) start o = .error d ∧ d.code = .secondElse ∧
      d.line = some (o.spot start).command := by
  have helse : readElse r (top :: blocks) start top o.rest =
      .error ⟨.secondElse top.kind.symbol, o.rest⟩ := by
    obtain ⟨kind, first⟩ := top
    cases kind with
    | loop => cases hk
    | loopElse => rfl
    | branch => cases hk
    | branchElse => rfl
  have hread : readStatement r (top :: blocks) start .otherwise o.rest =
      .error ⟨.secondElse top.kind.symbol, o.rest⟩ := by
    simp only [readStatement, readCommand, helse]
    rfl
  refine ⟨locate (o.text ++ o.rest) start ⟨.secondElse top.kind.symbol, o.rest⟩, ?_, rfl, ?_⟩
  · have hcommand : Command.ofChar? o.command = some .otherwise := by rw [hc]; rfl
    simp only [readSegment, hb, hcommand, hread, Nat.lt_irrefl, if_false]
  · simp only [locate, Text.upTo_append]
    rfl

end Scan

/-- **At the end of a template** no block is open, or the innermost one is reported. -/
theorem Open.needClosed_blocks (o : Open) :
    ((∃ p, o = .page p) ∧ needClosed o.blocks = .ok ()) ∨
      ∃ spot d, o.innermost? = some spot ∧ needClosed o.blocks = .error d ∧
        d.code = .unclosedBlock ∧ d.line = some spot.start := by
  cases o with
  | page p => exact .inl ⟨⟨p, rfl⟩, rfl⟩
  | loop outer spot array body => exact .inr ⟨spot, _, rfl, rfl, rfl, rfl⟩
  | loopElse outer spot array body otherwise part => exact .inr ⟨spot, _, rfl, rfl, rfl, rfl⟩
  | branch outer arms => exact .inr ⟨arms.spot, _, rfl, rfl, rfl, rfl⟩
  | branchElse outer arms otherwise part => exact .inr ⟨arms.spot, _, rfl, rfl, rfl, rfl⟩

/-- **How a page is left unfinished**: its innermost block is open at the end, or an else tag
follows the else part. -/
inductive Unfinished (o : Open) (ds : List Directive) (d : Diagnostic) : Prop
  | unclosed {o' : Open} {spot : Spot} (steps : o.steps ds = some o')
      (innermost : o'.innermost? = some spot) (code : d.code = .unclosedBlock)
      (line : d.line = some spot.start)
  | secondElse {front : List Directive} {spot : Spot} {value : Option Expr} {o' : Open}
      (last : ds = front ++ [⟨spot, .otherwise, value⟩]) (steps : o.steps front = some o')
      (isElse : o'.isElse = true) (code : d.code = .secondElse)
      (line : d.line = some spot.command)

/-- An unfinished page stays so with what was written before it. -/
theorem Unfinished.of_steps {o o' : Open} {a ds : List Directive} {d : Diagnostic}
    (h : o.steps a = some o') (k : Unfinished o' ds d) : Unfinished o (a ++ ds) d := by
  cases k with
  | unclosed steps innermost code line =>
    refine .unclosed ?_ innermost code line
    rw [Open.steps_append, h]
    exact steps
  | @secondElse front spot value o' last steps isElse code line =>
    have hlast : a ++ ds = (a ++ front) ++ [⟨spot, .otherwise, value⟩] := by
      rw [last, List.append_assoc]
    refine .secondElse hlast ?_ isElse code line
    rw [Open.steps_append, h]
    exact steps

/-- **An unfinished page is no page.** -/
theorem Unfinished.directives_ne {ds : List Directive} {d : Diagnostic}
    (h : Unfinished (.page .empty) ds d) (page : Page) : page.directives ≠ ds := by
  rintro rfl
  have hpage := Open.steps_page page
  cases h with
  | unclosed steps innermost _ _ =>
    cases hpage.symm.trans steps
    cases innermost
  | @secondElse front spot value o' last steps isElse _ _ =>
    rw [last, Open.steps_append, steps] at hpage
    change o'.steps [⟨spot, .otherwise, value⟩] = _ at hpage
    rw [Open.steps_singleton] at hpage
    cases o' with
    | loopElse => cases hpage
    | branchElse => cases hpage
    | _ => cases isElse

/-- **Scanning writes the directives of the template**, and ends well exactly with a page. -/
theorem scan_of_trace {r : Registry} {blocks : List Block} {line : Nat} {t : Text}
    {ds : List Directive} (h : Trace r blocks line t ds) : ∀ o : Open, o.blocks = blocks →
    (∃ page segments, o.steps ds = some (.page page) ∧ scan r blocks line t = .ok segments ∧
      page.outputs = o.outputs ++ outputs segments) ∨
    ∃ d, scan r blocks line t = .error d ∧ Unfinished o ds d := by
  induction h with
  | done hf =>
    rintro o rfl
    rw [scan_of_find?_none hf]
    rcases o.needClosed_blocks with ⟨⟨page, rfl⟩, hclosed⟩ | ⟨spot, d, hspot, hopen, hcode, hline⟩
    · rw [hclosed]
      exact .inl ⟨page, _, rfl, rfl, (List.append_nil _).symm⟩
    · rw [hopen]
      exact .inr ⟨d, rfl, .unclosed rfl hspot hcode hline⟩
  | @read blocks after line t rest opener segment ds hf hr others ih =>
    rintro o rfl
    obtain ⟨o', hsteps, hblocks, houtputs⟩ := Open.steps_of_readSegment hr
    rw [scan_of_ok hf hr]
    rcases ih o' hblocks with ⟨page, segments, hpage, hscan, hout⟩ | ⟨d, hscan, hopen⟩
    · rw [hscan]
      refine .inl ⟨page, _, ?_, rfl, ?_⟩
      · rw [Open.steps_append, hsteps]
        exact hpage
      · rw [hout, houtputs, List.append_assoc]
        have hsegments : outputs (.plain opener.before :: segment :: segments) =
            outputs [segment] ++ outputs segments := by
          cases segment <;> rfl
        rw [hsegments]
    · rw [hscan]
      exact .inr ⟨d, rfl, hopen.of_steps hsteps⟩
  | @refused top blocks line t opener value hf hb hc hk =>
    intro o ho
    obtain ⟨d, hd, hcode, hline⟩ :=
      readSegment_refused r blocks hb hc hk (line + opener.before.newlines)
    refine .inr ⟨d, scan_of_error hf hd, .secondElse (List.nil_append _).symm rfl ?_ hcode hline⟩
    cases o with
    | page p => cases ho
    | loop outer spot array body =>
      obtain ⟨rfl, -⟩ := List.cons.inj ho
      cases hk
    | branch outer arms =>
      obtain ⟨rfl, -⟩ := List.cons.inj ho
      cases hk
    | loopElse => rfl
    | branchElse => rfl

/-- **What is reported of an unfinished page**: an else tag behind an else part, or the tag that
opened its innermost block. -/
theorem Unfinished.report {ds : List Directive} {d : Diagnostic}
    (h : Unfinished (.page .empty) ds d) :
    (∃ (o : Open) (spot : Spot) (value : Option Expr),
      ds = o.directives ++ [⟨spot, .otherwise, value⟩] ∧ o.isElse = true ∧
        d.code = .secondElse ∧ d.line = some spot.command) ∨
    ∃ (o : Open) (spot : Spot), ds = o.directives ∧ o.innermost? = some spot ∧
      d.code = .unclosedBlock ∧ d.line = some spot.start := by
  cases h with
  | unclosed steps innermost code line =>
    exact .inr ⟨_, _, (Open.directives_steps steps).symm, innermost, code, line⟩
  | @secondElse front spot value o last steps isElse code line =>
    refine .inl ⟨o, spot, value, ?_, isElse, code, line⟩
    rw [last, Open.directives_steps steps]
    rfl

/-- **The block grammar.**  A template whose tags are right, each by itself, compiles exactly when
it holds no host script and its directives are those of a page.  Its statements are then those of
the page; their bodies are pieces of control flow, whose braces nest.  Otherwise, without host
script, the report names an else tag behind an else part, or the line of the tag that opened the
innermost block left open.  All lines have no more than 32 bits where these can count the lines of
the template. -/
theorem compile_iff_page (c : Compiler) (source : Text) (ds : List Directive)
    (htags : Trace c.registry [] 1 (Source.normalize source) ds) :
    ((∃ body, c.compile source = .ok body) ↔
      HostTag.reject c.shortTags (Source.normalize source) = .ok () ∧
        ∃ page : Page, page.directives = ds) ∧
    (∀ segments page, c.segments source = .ok segments → Page.directives page = ds →
      outputs segments = page.outputs ∧
      (∀ s ∈ statements segments, s.body c.registry = s.controls.flatMap (Control.code c.registry) ∧
        ∀ t, .text t ∈ s.controls → Braceless t) ∧
      nestAll [] (statements segments) = some []) ∧
    (∀ d, c.compile source = .error d →
      HostTag.reject c.shortTags (Source.normalize source) = .error d ∨
      (∃ (o : Open) (spot : Spot) (value : Option Expr),
        ds = o.directives ++ [⟨spot, .otherwise, value⟩] ∧ o.isElse = true ∧
          d.code = .secondElse ∧ d.line = some spot.command) ∨
      ∃ (o : Open) (spot : Spot), ds = o.directives ∧ o.innermost? = some spot ∧
        d.code = .unclosedBlock ∧ d.line = some spot.start) ∧
    ((Source.normalize source).newlines < 2 ^ 32 - 1 →
      ∀ x ∈ ds, x.spot.start < 2 ^ 32 ∧ x.spot.command < 2 ^ 32) := by
  have hlines : (Source.normalize source).newlines < 2 ^ 32 - 1 →
      ∀ x ∈ ds, x.spot.start < 2 ^ 32 ∧ x.spot.command < 2 ^ 32 := by
    intro hfew x hx
    have := htags.line_le x hx
    omega
  rcases hhost : HostTag.reject c.shortTags (Source.normalize source) with d | ⟨⟩
  · -- Host script is refused before anything is scanned.
    have hsegments : c.segments source = .error d := by simp only [Compiler.segments, hhost]
    refine ⟨⟨?_, fun h => nomatch h.1⟩, ?_, ?_, hlines⟩
    · rintro ⟨body, hbody⟩
      obtain ⟨segments, hok, -⟩ := Compiler.compile_eq_ok_iff.1 hbody
      cases hsegments.symm.trans hok
    · intro segments page hok
      cases hsegments.symm.trans hok
    · intro d' hd
      cases hsegments.symm.trans (Compiler.compile_eq_error_iff.1 hd)
      exact .inl rfl
  have hsegments : c.segments source = scan c.registry [] 1 (Source.normalize source) := by
    simp only [Compiler.segments, hhost]
  rcases scan_of_trace htags (.page .empty) rfl with
    ⟨page, segments, hsteps, hscan, hout⟩ | ⟨d, hscan, hopen⟩
  · have hok : c.segments source = .ok segments := hsegments.trans hscan
    have hcompile := Compiler.compile_eq_ok_iff.2 ⟨segments, hok, rfl⟩
    refine ⟨⟨fun _ => ⟨rfl, page, Open.directives_steps hsteps⟩, fun _ => ⟨_, hcompile⟩⟩, ?_, ?_,
      hlines⟩
    · intro segments' page' hok' hds
      obtain rfl : segments = segments' := Except.ok.inj (hok.symm.trans hok')
      obtain rfl : page' = page := by
        have hsame := (Open.steps_page page').symm.trans ((congrArg _ hds).trans hsteps)
        exact Open.page.inj (Option.some.inj hsame)
      obtain ⟨after, hrun, hclosed⟩ := run_of_scan_ok hscan
      obtain ⟨hshaped, hnest⟩ := nestAll_of_run hrun .nil
      rw [hshaped.eq_nil hclosed] at hnest
      refine ⟨hout.symm, fun s _ => ⟨s.body_eq_controls c.registry, fun t ht => ?_⟩, hnest⟩
      exact Statement.braceless_of_mem_controls ht
    · intro d hd
      cases hcompile.symm.trans hd
  · have herror : c.segments source = .error d := hsegments.trans hscan
    refine ⟨⟨?_, ?_⟩, ?_, ?_, hlines⟩
    · rintro ⟨body, hbody⟩
      cases (Compiler.compile_eq_error_iff.2 herror).symm.trans hbody
    · rintro ⟨-, page, hpage⟩
      exact absurd hpage (hopen.directives_ne page)
    · intro segments page hok
      cases herror.symm.trans hok
    · intro d' hd
      cases herror.symm.trans (Compiler.compile_eq_error_iff.1 hd)
      exact .inr hopen.report

/-- A branch with an else part compiles. -/
theorem compile_branch_else :
    ∃ body, (Compiler.mk .standard false).compile "[? 1 ]x[:]y[/]" = .ok body := by
  let test : Expr := .plain (.one none (.number "1"))
  let page : Page := .node .empty (.branch (.first ⟨1, 1⟩ test .empty)
    (.otherwise ⟨1, 1⟩ .empty ⟨1, 1⟩))
  have hfills : Fills ⟨.standard, 0⟩ " 1 ]x[:]y[/]" test "]x[:]y[/]" :=
    ⟨⟨nofun, trivial⟩, by decide, .token rfl (.done _), rfl⟩
  have hread : readStatement .standard [] 1 .branch " 1 ]x[:]y[/]" =
      .ok (some ((.branch test, [⟨.branch, 1⟩]), "x[:]y[/]")) :=
    bind_eq_ok_iff.2 ⟨_, bind_eq_ok_iff.2 ⟨_, readTag_eq_ok_iff.2 hfills, rfl⟩, rfl⟩
  have hbranch := readSegment_of_readStatement (o := ⟨[], [], 0, '?', " 1 ]x[:]y[/]"⟩) rfl rfl hread
  have helse : readSegment .standard [⟨.branch, 1⟩] 1 ⟨"x", [], 0, ':', "]y[/]"⟩ =
      .ok ((.tag "[:]" 1 .branchElse, [⟨.branchElse, 1⟩, ⟨.branch, 1⟩]), "y[/]") := rfl
  have hend : readSegment .standard [⟨.branchElse, 1⟩, ⟨.branch, 1⟩] 1 ⟨"y", [], 0, '/', "]"⟩ =
      .ok ((.tag "[/]" 1 .endBranch, []), []) := rfl
  have htags : Trace .standard [] 1 (Source.normalize "[? 1 ]x[:]y[/]") page.directives :=
    .read rfl hbranch (.read rfl helse (.read rfl hend (.done rfl)))
  exact (compile_iff_page _ _ _ htags).1.2 ⟨rfl, page, rfl⟩

end Stencil
