import Stencil.Artifact.SourceMap
import Stencil.Proofs.Artifact.Header
import Stencil.Proofs.Template.Mark

/-!
# Proofs/Artifact/SourceMap — a line of an artifact leads to its tag

    header ↵ text │ /* mark */ │ text ↵ … text │ /* mark */ │ text
                  line n                        line m

Behind its header an artifact is woven from texts and the comments of marks (`Segment.weave`).  Where
none of the texts holds what opens a mark, the first mark on a line is that of the first comment on
it (`Mark.find?_line`); and a comment lies on the line to which the code before it leads
(`Segment.marks`).  So the look-up by lines finds what was put there (`Origin.find?_stamp`).
-/

namespace Stencil

/-! ## Texts woven with marks -/

namespace Mark

/-- Comments, each with the text behind it. -/
def sew (woven : List (Mark × Text)) : Text := woven.flatMap fun (m, t) => m.comment ++ t

theorem sew_cons (m : Mark) (t : Text) (woven : List (Mark × Text)) :
    sew ((m, t) :: woven) = m.comment ++ (t ++ sew woven) := by
  rw [sew, List.flatMap_cons, List.append_assoc]
  rfl

/-- The marks of a woven text, each with its line, where `first` starts on `line`. -/
def onLines (line : Nat) (first : Text) : List (Mark × Text) → List (Nat × Mark)
  | [] => []
  | (m, next) :: woven =>
    (line + first.newlines, m) :: onLines (line + first.newlines) next woven

theorem onLines_append (line : Nat) (s t : Text) (woven : List (Mark × Text)) :
    onLines line (s ++ t) woven = onLines (line + s.newlines) t woven := by
  cases woven with
  | nil => rfl
  | cons p woven =>
    rw [onLines, onLines, Text.newlines_append, Nat.add_assoc]

theorem le_of_mem_onLines {line : Nat} {first : Text} {woven : List (Mark × Text)}
    {p : Nat × Mark} (h : p ∈ onLines line first woven) : line + first.newlines ≤ p.1 := by
  induction woven generalizing line first with
  | nil => cases h
  | cons q woven ih =>
    rcases List.mem_cons.1 h with rfl | h
    · exact Nat.le_refl _
    · exact Nat.le_trans (Nat.le_add_right _ _) (ih h)

/-- No line of a text in which nothing opens like a mark holds one. -/
theorem bind_find?_lines {t : Text} (h : ¬ opening <:+: t) (k : Nat) :
    ((Text.lines t)[k]?).bind find? = none := by
  cases hl : (Text.lines t)[k]? with
  | none => rfl
  | some l =>
    have hinfix := Text.infix_of_mem_lines (List.mem_of_getElem? hl)
    exact find?_eq_none fun hopening => h (hopening.trans hinfix)

/-- **The first mark on a line is the first one that was woven into it.** -/
theorem find?_line {first : Text} {woven : List (Mark × Text)} (hfirst : ¬ opening <:+: first)
    (hwoven : ∀ p ∈ woven, ¬ opening <:+: p.2 ∧ p.1.line < Nat.pow 2 32) (line k : Nat) :
    ((Text.lines (first ++ sew woven))[k]?).bind find? =
      ((onLines line first woven).find? fun p => p.1 = line + k).map (·.2) := by
  induction woven generalizing first line k with
  | nil =>
    rw [sew, List.flatMap_nil, List.append_nil]
    exact bind_find?_lines hfirst k
  | cons p woven ih =>
    obtain ⟨m, next⟩ := p
    obtain ⟨hnext, hm⟩ := hwoven (m, next) List.mem_cons_self
    rw [sew_cons]
    rcases Nat.lt_trichotomy k first.newlines with hk | hk | hk
    -- The line ends before the comment: it lies in the first text.
    · have hnone : (onLines line first ((m, next) :: woven)).find? (fun p => p.1 = line + k) =
          none := by
        refine List.find?_eq_none.2 fun p hp => ?_
        have := le_of_mem_onLines hp
        simp only [decide_eq_true_eq]
        omega
      rw [Text.getElem?_lines_of_lt hk, hnone]
      exact bind_find?_lines hfirst k
    -- The comment lies on the line, behind the end of the first text.
    · obtain ⟨front, back, hfront, -, hl⟩ := Text.getElem?_lines_word m.feed_not_mem_comment
        m.getLast?_comment (by decide) first (next ++ sew woven)
      rw [hk, hl, onLines, List.find?_cons_of_pos (by simp)]
      exact find?_append_comment (fun h => hfirst (h.trans hfront.isInfix)) hm back
    -- The line starts behind the comment.
    · obtain ⟨j, rfl⟩ : ∃ j, k = first.newlines + (j + 1) := ⟨k - first.newlines - 1, by omega⟩
      have hlines : (first ++ m.comment).newlines = first.newlines := by
        rw [Text.newlines_append, Text.newlines_eq_zero m.feed_not_mem_comment, Nat.add_zero]
      have hskip := Text.getElem?_lines_succ (first ++ m.comment) (next ++ sew woven) j
      rw [hlines, List.append_assoc] at hskip
      rw [hskip, onLines, List.find?_cons_of_neg (by simp),
        ih hnext (fun p hp => hwoven p (List.mem_cons_of_mem _ hp)) (line + first.newlines)]
      rw [Nat.add_assoc]

end Mark

/-! ## Statements around their marks -/

namespace Statement

variable {r : Registry}

/-- The code of a statement in front of its mark. -/
def front (r : Registry) (s : Statement) : Text := s.delimiter ++ " " ++ s.body r ++ " "

theorem code_eq_front (m : Mark) (s : Statement) :
    s.code r m = s.front r ++ (m.comment ++ " ?>") := by
  simp only [code, front, List.append_assoc]

theorem delimiter_cases (s : Statement) : s.delimiter = "<?=" ∨ s.delimiter = "<?php" := by
  cases s
  · exact .inl rfl
  all_goals exact .inr rfl

/-- Only the body of a statement holds line feeds. -/
theorem newlines_front (s : Statement) : (s.front r).newlines = (s.body r).newlines := by
  have hdelimiter : s.delimiter.newlines = 0 := by
    rcases s.delimiter_cases with h | h <;> rw [h] <;> decide
  have hblank : Text.newlines " " = 0 := by decide
  simp only [front, Text.newlines_append, hdelimiter, hblank]
  omega

theorem newlines_code (m : Mark) (s : Statement) :
    (s.code r m).newlines = (s.body r).newlines := by
  have hclose : Text.newlines " ?>" = 0 := by decide
  rw [code_eq_front, Text.newlines_append, Text.newlines_append, newlines_front,
    Text.newlines_eq_zero m.feed_not_mem_comment, hclose]
  rfl

theorem front_eq_cons (s : Statement) : ∃ k, s.front r = '<' :: k := by
  rcases s.delimiter_cases with h | h
  all_goals
    rw [front, h]
    exact ⟨_, rfl⟩

/-- **Where nothing in the body opens like a mark, nothing does in front of the mark.** -/
theorem not_opening_front {s : Statement} (h : ¬ Mark.opening <:+: s.body r) :
    ¬ Mark.opening <:+: s.front r := by
  have hslash : '/' ∉ s.delimiter ++ " " := by
    rcases s.delimiter_cases with h | h <;> rw [h] <;> decide
  have hblank : (" " : Text) = [' '] := by decide
  intro hfront
  rw [front, List.append_assoc] at hfront
  have hbody : Mark.opening <:+: s.body r ++ [' '] := by
    rw [← hblank]
    exact Text.infix_of_infix_append hslash hfront
  rcases List.infix_concat_iff.1 hbody with hlast | hbody
  · obtain ⟨k, hk⟩ := hlast
    have hends := congrArg List.getLast? hk
    rw [List.getLast?_concat, List.getLast?_append] at hends
    cases hends
  · exact h hbody

end Statement

/-! ## The marks of segments -/

namespace Segment

variable {r : Registry}

/-- The code of segments, woven: the text up to the first mark, and each mark with the text up to
the next. -/
def weave (r : Registry) : List Segment → Text × List (Mark × Text)
  | [] => ([], [])
  | .tag text line s :: segments =>
    (s.front r, (⟨line, text⟩, " ?>" ++ (weave r segments).1) :: (weave r segments).2)
  | segment :: segments => (segment.code r ++ (weave r segments).1, (weave r segments).2)

theorem code_eq_weave (segments : List Segment) :
    segments.flatMap (code r) = (weave r segments).1 ++ Mark.sew (weave r segments).2 := by
  fun_induction weave r segments with
  | case1 => rfl
  | case2 text line s segments ih =>
    dsimp only
    rw [List.flatMap_cons, ih, code, Statement.code_eq_front, Mark.sew_cons]
    simp only [List.append_assoc]
  | case3 segment segments _ ih => rw [List.flatMap_cons, ih, List.append_assoc]

/-- **The marks of segments whose code starts on a line**, each with the line on which its comment
lies: that on which the body of its statement ends. -/
def marks (r : Registry) : Nat → List Segment → List (Nat × Mark)
  | _, [] => []
  | line, .tag text start s :: segments =>
    (line + (s.body r).newlines, ⟨start, text⟩) ::
      marks r (line + (s.code r ⟨start, text⟩).newlines) segments
  | line, segment :: segments => marks r (line + (segment.code r).newlines) segments

theorem marks_eq_onLines (line : Nat) (segments : List Segment) :
    marks r line segments = Mark.onLines line (weave r segments).1 (weave r segments).2 := by
  fun_induction weave r segments generalizing line with
  | case1 => rfl
  | case2 text start s segments ih =>
    have hclose : Text.newlines " ?>" = 0 := by decide
    rw [marks, Mark.onLines, Statement.newlines_code, Statement.newlines_front, Mark.onLines_append,
      hclose, Nat.add_zero, ih]
  | case3 segment segments hsegment ih =>
    rw [marks, Mark.onLines_append, ih]
    exact hsegment

/-- No mark lies on a line before the first one. -/
theorem find?_marks_of_lt {line n : Nat} (h : n < line) (segments : List Segment) :
    (marks r line segments).find? (fun p => p.1 = n) = none := by
  refine List.find?_eq_none.2 fun p hp => ?_
  rw [marks_eq_onLines] at hp
  have := Mark.le_of_mem_onLines hp
  simp only [decide_eq_true_eq]
  omega

/-- Every mark is that of a tag. -/
theorem tag_of_mem_weave {segments : List Segment} {p : Mark × Text}
    (h : p ∈ (weave r segments).2) : ∃ s, .tag p.1.code p.1.line s ∈ segments := by
  fun_induction weave r segments with
  | case1 => cases h
  | case2 text line s segments ih =>
    rcases List.mem_cons.1 h with rfl | h
    · exact ⟨s, List.mem_cons_self⟩
    · obtain ⟨s, hs⟩ := ih h
      exact ⟨s, List.mem_cons_of_mem _ hs⟩
  | case3 segment segments _ ih =>
    obtain ⟨s, hs⟩ := ih h
    exact ⟨s, List.mem_cons_of_mem _ hs⟩

/-- **A mark lies on its line**: so many line feeds are in front of its comment. -/
theorem comment_of_mem_marks {line : Nat} {segments : List Segment} {p : Nat × Mark}
    (h : p ∈ marks r line segments) :
    ∃ before after, segments.flatMap (code r) = before ++ (p.2.comment ++ after) ∧
      p.1 = line + Text.newlines before := by
  fun_induction marks r line segments with
  | case1 => cases h
  | case2 line text start s segments ih =>
    rcases List.mem_cons.1 h with rfl | h
    · refine ⟨s.front r, " ?>" ++ segments.flatMap (code r), ?_, ?_⟩
      · rw [List.flatMap_cons, code, Statement.code_eq_front]
        simp only [List.append_assoc]
      · rw [Statement.newlines_front]
    · obtain ⟨before, after, hcode, hline⟩ := ih h
      refine ⟨s.code r ⟨start, text⟩ ++ before, after, ?_, ?_⟩
      · rw [List.flatMap_cons, hcode, List.append_assoc, code]
      · rw [hline, Text.newlines_append, Nat.add_assoc]
  | case3 line segment segments _ ih =>
    obtain ⟨before, after, hcode, hline⟩ := ih h
    refine ⟨segment.code r ++ before, after, ?_, ?_⟩
    · rw [List.flatMap_cons, hcode, List.append_assoc]
    · rw [hline, Text.newlines_append, Nat.add_assoc]

/-! ## Segments without other marks -/

/-- **Nothing but the marks opens like one**: neither a text between tags nor the body of a
statement does. -/
structure Unmarked (r : Registry) (segments : List Segment) : Prop where
  gaps : ∀ run, run <:+: segments → statements run = [] →
    ¬ Mark.opening <:+: run.flatMap (code r)
  bodies : ∀ s ∈ statements segments, ¬ Mark.opening <:+: s.body r

theorem Unmarked.tail {segment : Segment} {segments : List Segment}
    (h : Unmarked r (segment :: segments)) : Unmarked r segments where
  gaps run hrun := h.gaps run (hrun.trans (List.suffix_cons _ _).isInfix)
  bodies s hs := by
    obtain ⟨other, hmem, hs⟩ := List.mem_filterMap.1 hs
    exact h.bodies s (List.mem_filterMap.2 ⟨other, List.mem_cons_of_mem _ hmem, hs⟩)

/-- The text up to the first mark: the code of a run without tags, and the front of a statement. -/
theorem exists_run {segments : List Segment} (h : Unmarked r segments) :
    ∃ run rest, run <+: segments ∧ statements run = [] ∧
      (weave r segments).1 = run.flatMap (code r) ++ rest ∧
      (rest = [] ∨ ∃ k, rest = '<' :: k ∧ ¬ Mark.opening <:+: rest) := by
  fun_induction weave r segments with
  | case1 => exact ⟨[], [], List.prefix_refl _, rfl, rfl, .inl rfl⟩
  | case2 text line s segments _ =>
    obtain ⟨k, hk⟩ := s.front_eq_cons (r := r)
    exact ⟨[], s.front r, List.nil_prefix, rfl, rfl, .inr ⟨k, hk,
      Statement.not_opening_front (h.bodies s List.mem_cons_self)⟩⟩
  | case3 segment segments hsegment ih =>
    have hstatement : segment.statement? = none := by
      cases segment with
      | tag text line s => exact (hsegment text line s rfl).elim
      | _ => rfl
    obtain ⟨run, rest, hrun, hnone, hweave, hrest⟩ := ih h.tail
    refine ⟨segment :: run, rest, List.cons_prefix_cons.2 ⟨rfl, hrun⟩, ?_, ?_, hrest⟩
    · exact (List.filterMap_cons_none hstatement).trans hnone
    · rw [hweave, List.flatMap_cons, List.append_assoc]

theorem Unmarked.first {segments : List Segment} (h : Unmarked r segments) :
    ¬ Mark.opening <:+: (weave r segments).1 := by
  obtain ⟨run, rest, hrun, hnone, hweave, hrest⟩ := exists_run h
  have hgap := h.gaps run hrun.isInfix hnone
  rw [hweave]
  rcases hrest with rfl | ⟨k, rfl, hfront⟩
  · rwa [List.append_nil]
  · exact fun hopening => (Text.infix_append_cons (by decide) hopening).elim hgap hfront

/-- **Nothing opens like a mark between the marks.** -/
theorem Unmarked.next {segments : List Segment} (h : Unmarked r segments) :
    ∀ p ∈ (weave r segments).2, ¬ Mark.opening <:+: p.2 := by
  fun_induction weave r segments with
  | case1 => exact fun p hp => absurd hp List.not_mem_nil
  | case2 text line s segments ih =>
    intro p hp
    rcases List.mem_cons.1 hp with rfl | hp
    · exact fun hopening => h.tail.first (Text.infix_of_infix_append (by decide) hopening)
    · exact ih h.tail p hp
  | case3 segment segments _ ih => exact ih h.tail

end Segment

/-! ## The look-up -/

/-- The look-up behind a header that reads back. -/
theorem Origin.find?_of_header {first body : Text} {info : HeaderInfo}
    (hlines : Text.lines (first ++ '\n' :: body) = first :: Text.lines body)
    (hinfo : HeaderInfo.parse? first = some info) (line : Nat) :
    Origin.find? (first ++ '\n' :: body) line =
      if line < 2 then none
      else (((Text.lines body)[line - 2]?).bind Mark.find?).map fun m =>
        ⟨info.source, m.line, m.code⟩ := by
  rw [Origin.find?, hlines]
  dsimp only [Option.bind_eq_bind]
  rw [hinfo, Option.bind_some]
  split
  · rfl
  · cases (Text.lines body)[line - 2]? with
    | none => rfl
    | some text =>
      rw [Option.bind_some, Option.bind_some]
      cases Mark.find? text <;> rfl

/-- The look-up in a stamped body. -/
theorem Origin.find?_of_stamp {r : Registry} {segments : List Segment}
    {version path artifact : Text} {time : Instant} {zone : Zone}
    (hlines : ∀ text line s, Segment.tag text line s ∈ segments → line < Nat.pow 2 32)
    (hblank : ' ' ∉ version) (hversion : '\n' ∉ version) (hpath : '\n' ∉ path)
    (hstamp : (Header.make version time path zone).stamp (segments.flatMap (Segment.code r)) =
      .ok artifact)
    (hunmarked : Segment.Unmarked r segments) (n : Nat) :
    Origin.find? artifact n =
      ((Segment.marks r 2 segments).find? fun p => p.1 = n).map fun p =>
        ⟨path, p.2.line, p.2.code⟩ := by
  obtain ⟨hsize, rfl⟩ := Header.stamp_eq_ok_iff.1 hstamp
  rw [Origin.find?_of_header (Header.lines_firstLine hversion hpath time zone _ _)
    (HeaderInfo.parse?_make hblank path time zone hsize)]
  by_cases hn : n < 2
  · rw [if_pos hn, Segment.find?_marks_of_lt hn]
    rfl
  · obtain ⟨k, rfl⟩ := Nat.exists_eq_add_of_le (Nat.le_of_not_lt hn)
    have hwoven : ∀ p ∈ (Segment.weave r segments).2,
        ¬ Mark.opening <:+: p.2 ∧ p.1.line < Nat.pow 2 32 := by
      intro p hp
      obtain ⟨s, hs⟩ := Segment.tag_of_mem_weave hp
      exact ⟨hunmarked.next p hp, hlines _ _ s hs⟩
    have hline := Mark.find?_line hunmarked.first hwoven 2 k
    rw [if_neg hn, Nat.add_sub_cancel_left, Segment.code_eq_weave, hline,
      Segment.marks_eq_onLines, Option.map_map]
    rfl

/-- **A line of an artifact leads to its first tag.**  Of a template that compiles to a body that
fits into an artifact, where neither a text between its tags nor the body of a statement opens like
a mark: the look-up of a line gives the path of the template with the line and the text of the first
tag whose mark lies on it, and nothing where no mark does, in particular in front of the first line
and on that of the header.  The marks lie in the artifact as `Segment.marks` says, one for each tag,
and the text and the line of a tag are those of its place in the template.  The line of a mark is a
number of 32 bits, so no tag may lie behind the lines that these can count. -/
theorem Origin.find?_stamp (c : Compiler) (source body version path artifact : Text)
    (time : Instant) (zone : Zone) (segments : List Segment)
    (hcompile : c.compile source = .ok body) (hsegments : c.segments source = .ok segments)
    (hlines : ∀ text line s, Segment.tag text line s ∈ segments → line < Nat.pow 2 32)
    (hblank : ' ' ∉ version) (hversion : '\n' ∉ version) (hpath : '\n' ∉ path)
    (hstamp : (Header.make version time path zone).stamp body = .ok artifact)
    (hunmarked : Segment.Unmarked c.registry segments) :
    (∀ n, Origin.find? artifact n =
      ((Segment.marks c.registry 2 segments).find? fun p => p.1 = n).map fun p =>
        ⟨path, p.2.line, p.2.code⟩) ∧
    Origin.find? artifact 0 = none ∧ Origin.find? artifact 1 = none ∧
    (∀ p ∈ Segment.marks c.registry 2 segments, ∃ before after,
      artifact = before ++ (p.2.comment ++ after) ∧ p.1 = 1 + Text.newlines before) ∧
    (∀ front text line s back, segments = front ++ Segment.tag text line s :: back →
      Source.normalize source =
        front.flatMap Segment.source ++ (text ++ back.flatMap Segment.source) ∧
      line = 1 + Text.newlines (front.flatMap Segment.source)) := by
  obtain ⟨found, hfound, rfl⟩ := Compiler.compile_eq_ok_iff.1 hcompile
  obtain rfl := Except.ok.inj (hfound.symm.trans hsegments)
  have hlookup := Origin.find?_of_stamp hlines hblank hversion hpath hstamp hunmarked
  have hearly : ∀ n, n < 2 → Origin.find? artifact n = none := by
    intro n hn
    rw [hlookup, Segment.find?_marks_of_lt hn]
    rfl
  refine ⟨hlookup, hearly 0 (by decide), hearly 1 (by decide), ?_, ?_⟩
  · intro p hp
    obtain ⟨before, after, hcode, hline⟩ := Segment.comment_of_mem_marks hp
    obtain ⟨first, hfeed, hartifact⟩ : ∃ first : Text, '\n' ∉ first ∧
        artifact = first ++ '\n' :: found.flatMap (Segment.code c.registry) :=
      ⟨_, Header.feed_not_mem_firstLine hversion hpath time zone _,
        (Header.stamp_eq_ok_iff.1 hstamp).2⟩
    refine ⟨first ++ '\n' :: before, after, ?_, ?_⟩
    · rw [hartifact, hcode, List.append_assoc, List.cons_append]
    · rw [Text.newlines_append, Text.newlines_eq_zero hfeed, Text.newlines_cons_feed, hline]
      omega
  · intro front text line s back hsplit
    obtain ⟨-, hscan⟩ := Compiler.segments_eq_ok_iff.1 hsegments
    obtain ⟨middle, -, hfits⟩ := fits_of_scan hscan hsplit
    refine ⟨?_, ?_⟩
    · rw [← source_of_scan hscan, hsplit, List.flatMap_append, List.flatMap_cons]
      rfl
    · cases hfits
      rfl

/-- A quoted text over two lines that holds the end of a comment, two marks on one line, and a path
with a blank. -/
theorem Origin.find?_stamp_quoted_lines :
    ∃ body artifact, (Compiler.mk .standard false).compile "x [= 'a*/\nb' ][? 1 ]\n[/]" = .ok body ∧
      (Header.make "1.1.2" 0 "/my views/p.html").stamp body = .ok artifact ∧
      Origin.find? artifact 0 = none ∧ Origin.find? artifact 1 = none ∧
      Origin.find? artifact 2 = none ∧
      Origin.find? artifact 3 = some ⟨"/my views/p.html", 1, "[= 'a*/\nb' ]"⟩ ∧
      Origin.find? artifact 4 = some ⟨"/my views/p.html", 3, "[/]"⟩ := by
  let segments : List Segment := [.plain "x ",
    .tag "[= 'a*/\nb' ]" 1 (.echo (.plain (.one none (.quoted "'a*/\nb'")))), .plain [],
    .tag "[? 1 ]" 2 (.branch (.plain (.one none (.number ['1'])))), .plain "\n",
    .tag "[/]" 3 .endBranch, .plain []]
  have hsegments : (Compiler.mk .standard false).segments "x [= 'a*/\nb' ][? 1 ]\n[/]" =
      .ok segments := by
    with_unfolding_all rfl
  have hcompile := Compiler.compile_eq_ok_iff.2 ⟨_, hsegments, rfl⟩
  have hsize : (Header.make "1.1.2" 0 "/my views/p.html").totalSize
      (segments.flatMap (Segment.code .standard)) ≤ Header.maxSize := by
    decide +kernel
  have hstamp := Header.stamp_eq_ok_iff.2 ⟨hsize, rfl⟩
  have hmarks : Segment.marks .standard 2 segments =
      [(3, ⟨1, "[= 'a*/\nb' ]"⟩), (3, ⟨2, "[? 1 ]"⟩), (4, ⟨3, "[/]"⟩)] := by
    decide +kernel
  have hlines : ∀ text line s, Segment.tag text line s ∈ segments → line < Nat.pow 2 32 := by
    intro text line s hmem
    have hbound : 3 < Nat.pow 2 32 := by decide
    simp only [segments, List.mem_cons, Segment.tag.injEq, reduceCtorEq, List.not_mem_nil,
      or_false, false_or] at hmem
    omega
  have hgaps : ∀ run, run <:+: segments → statements run = [] →
      ¬ Mark.opening <:+: run.flatMap (Segment.code .standard) := by
    intro run hrun hnone hopening
    have hslash := hopening.subset (by decide : '/' ∈ Mark.opening)
    obtain ⟨segment, hmem, hcode⟩ := List.mem_flatMap.1 hslash
    have hplain : segment.statement? = none := List.filterMap_eq_nil_iff.1 hnone segment hmem
    have hall := hrun.subset hmem
    simp only [segments, List.mem_cons, List.not_mem_nil, or_false] at hall
    rcases hall with rfl | rfl | rfl | rfl | rfl | rfl | rfl
    · exact absurd hcode (by decide)
    · cases hplain
    · cases hcode
    · cases hplain
    · exact absurd hcode (by decide)
    · cases hplain
    · cases hcode
  have hbodies : ∀ s ∈ statements segments, ¬ Mark.opening <:+: s.body .standard := by
    decide +kernel
  obtain ⟨hlookup, hzero, hone, -, -⟩ := Origin.find?_stamp _ _ _ _ _ _ _ _ _ hcompile hsegments
    hlines (by decide) (by decide) (by decide) hstamp ⟨hgaps, hbodies⟩
  refine ⟨_, _, hcompile, hstamp, hzero, hone, ?_, ?_, ?_⟩
  all_goals
    rw [hlookup]
    change ((Segment.marks .standard 2 segments).find? _).map _ = _
    rw [hmarks]
    rfl

end Stencil
