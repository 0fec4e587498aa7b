import Stencil.Source
import Stencil.Template.HostTag
import Stencil.Template.Statement

/-!
# Template/Basic — compiling a template

    source ──normalize──▸ text ──scan──▸ segments ──code──▸ body

A normalised text falls into segments: plain text, escaped openers, comments, tags, and stray
openers outside any block.  Each segment holds the text it was read from (`Segment.source`) and
stands for a piece of the body (`Segment.code`).  A template with a host tag is refused before it is
scanned.
-/

namespace Stencil

/-! ## Segments -/

/-- A piece of a template. -/
inductive Segment
  | plain (text : Text)
  /-- An opener behind backslashes, of which one escapes it. -/
  | escaped (opener : Opener)
  | comment (text : Text)
  /-- A tag that starts on `line`. -/
  | tag (text : Text) (line : Nat) (statement : Statement)
  /-- An else or end opener outside any block. -/
  | stray (text : Text)

namespace Segment

/-- The text that a segment was read from. -/
def source : Segment → Text
  | plain text => text
  | escaped opener => opener.text
  | comment text => text
  | tag text _ _ => text
  | stray text => text

/-- What a segment stands for in the body. -/
def code (r : Registry) : Segment → Text
  | plain text => text
  | escaped opener => opener.textWith (opener.backslashes - 1)
  | comment _ => []
  | tag text line statement => statement.code r ⟨line, text⟩
  | stray text => text

end Segment

/-! ## Scanning -/

/-- The text behind a comment, which ends at the first `*]`; without one it takes everything. -/
def skipComment (t : Text) : Text :=
  match Text.breakOn? "*]" t with
  | some (_, rest) => skipHtmlClose rest
  | none => []

/-- What a report quotes beyond the place where reading stopped: up to and with the next closing
bracket, but no further than the line. -/
def excerptEnd : Text → Text
  | [] => []
  | c :: t => if c = ']' then [c] else if c = '\n' then [] else c :: excerptEnd t

/-- The report about a tag that starts `t` on `line`. -/
def locate (t : Text) (line : Nat) (stuck : Stuck) : Diagnostic :=
  let passed := Text.upTo t stuck.rest
  (stuck.fault.diagnostic.withLine (line + passed.newlines)).withTag
    (passed ++ excerptEnd stuck.rest)

/-- The end of a template: every block must be closed. -/
def needClosed (blocks : List Block) : Except Diagnostic Unit :=
  match blocks.find? fun b => b.kind.opensBlock with
  | some b => .error ((Fault.unclosedBlock b.kind.symbol).diagnostic.withLine b.line)
  | none => .ok ()

/-- One piece of a template: the segment behind an opener on `line`, the open blocks after it, and
the text ahead. -/
def readSegment (r : Registry) (blocks : List Block) (line : Nat) (o : Opener) :
    Except Diagnostic ((Segment × List Block) × Text) :=
  let here := o.text ++ o.rest
  if 0 < o.backslashes then .ok ((.escaped o, blocks), o.rest)
  else
    match Command.ofChar? o.command with
    | none =>
      let rest := skipComment o.rest
      .ok ((.comment (Text.upTo here rest), blocks), rest)
    | some command =>
      match readStatement r blocks line command o.rest with
      | .error stuck => .error (locate here line stuck)
      | .ok none => .ok ((.stray o.text, blocks), o.rest)
      | .ok (some ((statement, blocks), rest)) =>
        .ok ((.tag (Text.upTo here rest) line statement, blocks), rest)

theorem breakOn?_suffix {pat t front rest : Text} (h : Text.breakOn? pat t = some (front, rest)) :
    rest <:+ t := by
  fun_induction Text.breakOn? pat t generalizing front with
  | case1 => obtain ⟨-, rfl⟩ := Prod.mk.inj (Option.some.inj h); exact List.suffix_refl _
  | case2 => cases h
  | case3 => obtain ⟨-, rfl⟩ := Prod.mk.inj (Option.some.inj h); exact List.drop_suffix _ _
  | case4 c t _ ih =>
    obtain ⟨⟨f, b⟩, hb, he⟩ := Option.map_eq_some_iff.1 h
    obtain ⟨-, rfl⟩ := Prod.mk.inj he
    exact (ih hb).trans (List.suffix_cons c t)

theorem skipComment_suffix (t : Text) : skipComment t <:+ t := by
  unfold skipComment
  split
  · next h => exact (skipHtmlClose_suffix _).trans (breakOn?_suffix h)
  · exact List.nil_suffix

theorem readSegment_suffix {r : Registry} {blocks : List Block} {line : Nat} {o : Opener}
    {found : Segment × List Block} {rest : Text}
    (h : readSegment r blocks line o = .ok (found, rest)) : rest <:+ o.rest := by
  simp only [readSegment] at h
  split at h
  · obtain ⟨-, rfl⟩ := Prod.mk.inj (Except.ok.inj h); exact List.suffix_refl _
  · split at h
    · obtain ⟨-, rfl⟩ := Prod.mk.inj (Except.ok.inj h); exact skipComment_suffix _
    · split at h
      · cases h
      · obtain ⟨-, rfl⟩ := Prod.mk.inj (Except.ok.inj h); exact List.suffix_refl _
      · next hs =>
        obtain ⟨-, rfl⟩ := Prod.mk.inj (Except.ok.inj h)
        exact readStatement_suffix hs

theorem length_lt_of_find? {t : Text} {o : Opener} (h : Opener.find? t = some o) :
    o.rest.length < t.length := by
  rw [← Opener.find?_append h]
  simp [Opener.text, Opener.textWith]
  omega

/-- **The segments of a text** that starts on `line` inside `blocks`. -/
def scan (r : Registry) (blocks : List Block) (line : Nat) (t : Text) :
    Except Diagnostic (List Segment) :=
  match _ : Opener.find? t with
  | none =>
    match needClosed blocks with
    | .error d => .error d
    | .ok () => .ok [.plain t]
  | some o =>
    let start := line + o.before.newlines
    match _ : readSegment r blocks start o with
    | .error d => .error d
    | .ok ((segment, blocks), rest) =>
      match scan r blocks (start + segment.source.newlines) rest with
      | .error d => .error d
      | .ok segments => .ok (.plain o.before :: segment :: segments)
termination_by t.length
decreasing_by
  exact Nat.lt_of_le_of_lt (readSegment_suffix ‹_›).length_le (length_lt_of_find? ‹_›)

/-! ## Compiling -/

/-- A compiler: its registry, and whether the host takes short tags. -/
structure Compiler where
  registry : Registry
  shortTags : Bool := false
  deriving DecidableEq, Repr

namespace Compiler

/-- The segments of a template. -/
def segments (c : Compiler) (source : Text) : Except Diagnostic (List Segment) :=
  let text := Source.normalize source
  match HostTag.reject c.shortTags text with
  | .error d => .error d
  | .ok () => scan c.registry [] 1 text

/-- **The body that a template compiles to.** -/
def compile (c : Compiler) (source : Text) : Except Diagnostic Text :=
  match c.segments source with
  | .error d => .error d
  | .ok segments => .ok (segments.flatMap (Segment.code c.registry))

end Compiler

end Stencil
