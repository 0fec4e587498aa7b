import Stencil.Proofs.Template.Walled

/-!
# Proofs/Template/Concat — one template behind another

    compile (A ++ "x" ++ B) = compile (A ++ "x") ++ compile B, with its lines counted on

No state goes from one part of a template to the next: where the first part compiles, no block is
open behind it, and nothing in it has looked further (`Passes.extend`).  So the scan starts anew
behind it, but for the line (`scan_later`), and what comes first is plain text that goes on
(`scan_behind_wall`).
-/

namespace Stencil

/-! ## Later lines -/

/-- The block some lines later. -/
def Block.later (k : Nat) (b : Block) : Block := { b with line := b.line + k }

/-- The segment some lines later. -/
def Segment.later (k : Nat) : Segment → Segment
  | tag text line statement => tag text (line + k) statement
  | segment => segment

@[simp] theorem Segment.source_later (k : Nat) (segment : Segment) :
    (segment.later k).source = segment.source := by
  cases segment <;> rfl

theorem Block.loops_later (k : Nat) (blocks : List Block) :
    loops (blocks.map (Block.later k)) = loops blocks := by
  rw [loops, List.countP_map]
  rfl

theorem Block.close_later (k : Nat) (blocks : List Block) :
    close (blocks.map (Block.later k)) = (close blocks).map (Block.later k) := by
  rw [close, List.dropWhile_map, ← List.map_tail]
  rfl

theorem needClosed_later (k : Nat) {blocks : List Block} (h : needClosed blocks = .ok ()) :
    needClosed (blocks.map (Block.later k)) = .ok () := by
  unfold needClosed at h ⊢
  split at h
  · cases h
  next hnone =>
  rw [List.find?_map, show ((fun b : Block => b.kind.opensBlock) ∘ Block.later k) =
    fun b => b.kind.opensBlock from rfl, hnone]
  rfl

section Later

variable {r : Registry} {blocks after : List Block} {line : Nat} {t rest : Text} {s : Statement}

theorem readElse_later (k : Nat) {top : Block}
    (h : readElse r blocks line top t = .ok ((s, after), rest)) :
    readElse r (blocks.map (Block.later k)) (line + k) (top.later k) t =
      .ok ((s, after.map (Block.later k)), rest) := by
  obtain ⟨kind, start⟩ := top
  cases kind with
  | loop =>
    cases h
    rfl
  | loopElse => cases h
  | branchElse => cases h
  | branch =>
    simp only [readElse, Block.later, Block.loops_later] at h ⊢
    split at h
    · next hbracket =>
      cases h
      rw [if_pos hbracket]
      rfl
    · next hbracket =>
      obtain ⟨⟨test, rest'⟩, htest, hr⟩ := bind_eq_ok_iff.1 h
      cases hr
      rw [if_neg hbracket, htest]
      rfl

/-- What a tag gives, some lines later. -/
def laterFound (k : Nat) (found : (Statement × List Block) × Text) :
    (Statement × List Block) × Text :=
  ((found.1.1, found.1.2.map (Block.later k)), found.2)

theorem readCommand_later (k : Nat) {command : Command}
    {result : Option ((Statement × List Block) × Text)}
    (h : readCommand r blocks line command t = .ok result) :
    readCommand r (blocks.map (Block.later k)) (line + k) command t =
      .ok (result.map (laterFound k)) := by
  cases command with
  | echo =>
    obtain ⟨⟨value, rest⟩, hvalue, hr⟩ := bind_eq_ok_iff.1 h
    cases hr
    rw [readCommand, Block.loops_later, hvalue]
    rfl
  | loop =>
    obtain ⟨⟨array, rest⟩, harray, hr⟩ := bind_eq_ok_iff.1 h
    cases hr
    rw [readCommand, Block.loops_later, harray]
    rfl
  | branch =>
    obtain ⟨⟨test, rest⟩, htest, hr⟩ := bind_eq_ok_iff.1 h
    cases hr
    rw [readCommand, Block.loops_later, htest]
    rfl
  | otherwise =>
    cases blocks with
    | nil =>
      cases h
      rfl
    | cons top blocks =>
      obtain ⟨⟨⟨s, after⟩, rest⟩, hfound, hr⟩ := bind_eq_ok_iff.1 h
      cases hr
      have hlater := readElse_later k hfound
      rw [List.map_cons] at hlater ⊢
      rw [readCommand, hlater]
      rfl
  | finish =>
    cases blocks with
    | nil =>
      cases h
      rfl
    | cons top blocks =>
      cases h
      rw [Option.map_some, laterFound, ← Block.close_later]
      rfl

theorem readStatement_later (k : Nat) {command : Command}
    {result : Option ((Statement × List Block) × Text)}
    (h : readStatement r blocks line command t = .ok result) :
    readStatement r (blocks.map (Block.later k)) (line + k) command t =
      .ok (result.map (laterFound k)) := by
  obtain ⟨read, hread, hr⟩ := bind_eq_ok_iff.1 h
  rw [readStatement, readCommand_later k hread]
  cases read with
  | none =>
    cases hr
    rfl
  | some found =>
    obtain ⟨rest', hclose, hr⟩ := bind_eq_ok_iff.1 hr
    cases hr
    change closeTag found.2 >>= _ = _
    rw [hclose]
    rfl

/-- **A piece is read in the same way some lines later.** -/
theorem readSegment_later (k : Nat) {o : Opener} {segment : Segment}
    (h : readSegment r blocks line o = .ok ((segment, after), rest)) :
    readSegment r (blocks.map (Block.later k)) (line + k) o =
      .ok ((segment.later k, after.map (Block.later k)), rest) := by
  simp only [readSegment] at h ⊢
  split at h
  · next hescape =>
    cases h
    rw [if_pos hescape]
    rfl
  next hescape =>
  rw [if_neg hescape]
  split at h
  · cases h
    rfl
  split at h
  · cases h
  · next hread =>
    cases h
    rw [readStatement_later k hread]
    rfl
  · next hread =>
    cases h
    rw [readStatement_later k hread]
    rfl

/-- **A text is scanned in the same way some lines later.** -/
theorem scan_later (k : Nat) {segments : List Segment} (h : scan r blocks line t = .ok segments) :
    scan r (blocks.map (Block.later k)) (line + k) t = .ok (segments.map (Segment.later k)) := by
  fun_induction scan r blocks line t generalizing segments with
  | case1 => cases h
  | case2 blocks line t hfind hclosed =>
    cases h
    rw [scan_of_find?_none hfind, needClosed_later k hclosed]
    rfl
  | case3 => cases h
  | case4 => cases h
  | case5 blocks line t o hfind start segment after rest hread others hothers =>
    rename_i ih
    cases h
    have hlater := readSegment_later k hread
    have hline : start + k = line + k + o.before.newlines := Nat.add_right_comm ..
    rw [hline] at hlater
    have hrest := ih hothers
    rw [Nat.add_right_comm, hline] at hrest
    rw [scan_of_ok hfind hlater, Segment.source_later, hrest]
    rfl

end Later

/-! ## Behind a wall -/

/-- What stands before an opener does not matter for the piece that it starts. -/
theorem readSegment_behind {r : Registry} {blocks after : List Block} {line : Nat} {o : Opener}
    {segment : Segment} {rest : Text}
    (h : readSegment r blocks line o = .ok ((segment, after), rest)) (front : Text) :
    readSegment r blocks line (o.between front []) =
      .ok ((segment.between front [], after), rest) := by
  have hopener : o.between front [] = { o with before := front ++ o.before } := by
    rw [Opener.between, List.append_nil]
  simp only [hopener, readSegment] at h ⊢
  split at h
  · next hescape =>
    cases h
    rw [if_pos hescape, Segment.between, hopener]
  next hescape =>
  rw [if_neg hescape]
  split at h
  · cases h
    rfl
  next command hcommand =>
  split at h
  · cases h
  · cases h
    rfl
  · cases h
    rfl

/-- **Behind a wall the scan starts anew**, on a later line: the text in front of the wall only comes
before the first plain text. -/
theorem scan_behind_wall {r : Registry} {t more : Text} {line k : Nat} {segments : List Segment}
    (hfind : Opener.find? t = none) (hwall : Walled t) (hline : line + t.newlines = 1 + k)
    (h : scan r [] 1 more = .ok segments) :
    ∃ all, scan r [] line (t ++ more) = .ok all ∧
      all.flatMap (Segment.code r) = t ++ (segments.map (Segment.later k)).flatMap (Segment.code r) := by
  have hfind' := Opener.find?_of_walled hfind hwall more
  cases hmore : Opener.find? more with
  | none =>
    rw [hmore] at hfind'
    rw [scan_of_find?_none hmore] at h
    cases h
    refine ⟨[.plain (t ++ more)], by rw [scan_of_find?_none hfind']; rfl, ?_⟩
    simp [Segment.code, Segment.later]
  | some o =>
    rw [hmore, Option.map_some] at hfind'
    cases hread : readSegment r [] (1 + o.before.newlines) o with
    | error d =>
      rw [scan_of_error hmore hread] at h
      cases h
    | ok found =>
      obtain ⟨⟨segment, after⟩, rest⟩ := found
      rw [scan_of_ok hmore hread] at h
      cases hothers : scan r after (1 + o.before.newlines + segment.source.newlines) rest with
      | error d =>
        rw [hothers] at h
        cases h
      | ok others =>
        rw [hothers] at h
        cases h
        have hstart : 1 + o.before.newlines + k = line + (t ++ o.before).newlines := by
          rw [Text.newlines_append]
          omega
        have hlater := readSegment_behind (readSegment_later k hread) t
        rw [hstart, List.map_nil] at hlater
        have hrest := scan_later k hothers
        rw [Nat.add_right_comm, hstart] at hrest
        refine ⟨.plain (t ++ o.before) :: (segment.later k).between t [] ::
          others.map (Segment.later k), ?_, ?_⟩
        · rw [scan_of_ok hfind' hlater, Segment.source_between, Segment.source_later]
          change (scan r _ (line + (t ++ o.before).newlines + _) rest).map _ = _
          rw [hrest]
          rfl
        · rw [List.flatMap_cons, List.flatMap_cons, Segment.code_between]
          simp [Segment.code, Segment.later]

/-! ## Normal forms and host tags -/

/-- A character that is no line ending and no mark keeps the texts around it apart. -/
theorem normalize_append_wall (a b : Text) :
    Source.normalize (a ++ 'x' :: b) = Source.normalize a ++ 'x' :: Source.normalize b := by
  -- A return at the end of `a` is not paired with what follows the wall.
  have hpair : ∀ {c : Char} {t : Text}, (∀ t', c = '\r' → t = '\n' :: t' → False) →
      ∀ t', c = '\r' → t ++ 'x' :: b = '\n' :: t' → False := by
    intro c t h t' hc ht
    cases t with
    | nil => cases ht
    | cons d t =>
      obtain ⟨rfl, -⟩ := List.cons.inj ht
      exact h t hc rfl
  fun_induction Source.normalize a with
  | case1 => rfl
  | case2 t ih =>
    rw [List.cons_append, List.cons_append, Source.normalize, ih]
    rfl
  | case3 t hreturn ih =>
    rw [List.cons_append, Source.normalize, if_pos rfl, ih]
    exact hpair hreturn
  | case4 t hreturn hmark ih =>
    rw [List.cons_append, Source.normalize, if_neg hmark, if_pos rfl, ih]
    · rfl
    · exact hpair hreturn
  | case5 c t hreturn hmark hne ih =>
    rw [List.cons_append, Source.normalize, if_neg hmark, if_neg hne, ih]
    · rfl
    · exact hpair hreturn

/-- **Host tags do not reach over a wall.** -/
theorem HostTag.reject_append_wall {short : Bool} {a b : Text}
    (ha : reject short (a ++ ['x']) = .ok ()) (hb : reject short b = .ok ()) :
    reject short (a ++ 'x' :: b) = .ok () := by
  have hquiet : Quiet short a :=
    Quiet.of_infix (quiet_of_reject ha) (List.prefix_append a ['x']).isInfix
  have hsealed : Sealed short (a ++ ['x']) := hquiet.sealed_concat (by decide) (by decide)
  have hwhole := hsealed.quiet_append (quiet_of_reject hb)
  rw [List.append_assoc] at hwhole
  exact reject_of_quiet hwhole

/-! ## The whole template -/

/-- **A template that compiles leaves no block open**, and passes to its last plain text. -/
theorem exists_passes_of_scan {r : Registry} {t : Text} {segments : List Segment}
    (h : scan r [] 1 t = .ok segments) :
    ∃ front q, Passes r ⟨[], 1, t⟩ front q ∧ q.blocks = [] ∧ Opener.find? q.ahead = none ∧
      segments = front ++ [.plain q.ahead] := by
  obtain ⟨front, q, hpasses, hend⟩ := exists_passes r ⟨[], 1, t⟩
  have hscan : (q.scan r).map (front ++ ·) = .ok segments := hpasses.scan.symm.trans h
  rcases hend with hnone | ⟨o, d, hfind, hread⟩
  · rw [Stage.scan, scan_of_find?_none hnone] at hscan
    cases hclosed : needClosed q.blocks with
    | error d =>
      rw [hclosed] at hscan
      cases hscan
    | ok _ =>
      rw [hclosed] at hscan
      cases hscan
      have hshaped := (nestAll_of_run hpasses.run .nil).1
      exact ⟨front, q, hpasses, hshaped.eq_nil hclosed, hnone, rfl⟩
  · rw [Stage.scan, scan_of_error hfind hread] at hscan
    cases hscan

/-- **No state leaks from one part of a template to the next**, for every registry, every setting
and all texts: where `a` with a wall behind it and `b` compile, and every comment of `a` is closed in
front of the wall, the whole compiles to both bodies one after the other.  Only the marks of `b` tell
that it comes later: their lines are counted on, and have no more than 32 bits where these can count
the lines of the whole. -/
theorem compile_append_wall (c : Compiler) (a b out out' : Text)
    (ha : c.compile (a ++ "x") = .ok out) (hb : c.compile b = .ok out')
    (hclosed : ∀ segments, c.segments (a ++ "x") = .ok segments →
      ∀ segment ∈ segments, segment.IsClosed) :
    ∃ segments, c.segments b = .ok segments ∧
      out' = segments.flatMap (Segment.code c.registry) ∧
      c.compile (a ++ "x" ++ b) =
        .ok (out ++ (segments.map (Segment.later (Source.normalize a).newlines)).flatMap
          (Segment.code c.registry)) ∧
      ((Source.normalize (a ++ "x" ++ b)).newlines < 2 ^ 32 - 1 →
        ∀ text line s, .tag text line s ∈ segments →
          line + (Source.normalize a).newlines < 2 ^ 32) := by
  obtain ⟨first, hfirst, rfl⟩ := Compiler.compile_eq_ok_iff.1 ha
  obtain ⟨second, hsecond, rfl⟩ := Compiler.compile_eq_ok_iff.1 hb
  have hall := hclosed first hfirst
  obtain ⟨hquiet, hscan⟩ := Compiler.segments_eq_ok_iff.1 hfirst
  obtain ⟨hquiet', hscan'⟩ := Compiler.segments_eq_ok_iff.1 hsecond
  have hnormal : Source.normalize (a ++ "x") = Source.normalize a ++ ['x'] :=
    normalize_append_wall a []
  rw [hnormal] at hquiet hscan
  have hwall : Walled (Source.normalize a ++ ['x']) := List.getLast?_concat
  obtain ⟨front, q, hpasses, hblocks, hnone, rfl⟩ := exists_passes_of_scan hscan
  obtain ⟨hextend, hlast⟩ := hpasses.extend hwall
    (fun segment hmem => hall segment (List.mem_append_left _ hmem)) (Source.normalize b)
  have hline : q.line + q.ahead.newlines = 1 + (Source.normalize a).newlines := by
    have hlines := congrArg Text.newlines hpasses.source
    have hcount := hpasses.line
    simp only [Text.newlines_append] at hlines hcount
    rw [show Text.newlines ['x'] = 0 from rfl] at hlines
    omega
  obtain ⟨all, hbehind, hcode⟩ := scan_behind_wall hnone hlast hline hscan'
  have hnormal' : Source.normalize (a ++ "x" ++ b) =
      Source.normalize a ++ 'x' :: Source.normalize b := by
    rw [List.append_assoc]
    exact normalize_append_wall a b
  refine ⟨second, hsecond, rfl, Compiler.compile_eq_ok_iff.2
    ⟨front.map (Segment.between [] (Source.normalize b)) ++ all, ?_, ?_⟩,
    fun hlines text line s hmem => ?_⟩
  · refine Compiler.segments_eq_ok_iff.2 ⟨?_, ?_⟩
    · rw [hnormal']
      exact HostTag.reject_append_wall hquiet hquiet'
    · have hwhole := hextend.scan
      rw [Stage.scan, Stage.scan, Stage.extend, Stage.extend, hblocks, hbehind] at hwhole
      rw [hnormal']
      rw [List.append_assoc] at hwhole
      exact hwhole
  · have hfront : (front.map (Segment.between [] (Source.normalize b))).flatMap
        (Segment.code c.registry) = front.flatMap (Segment.code c.registry) := by
      rw [List.flatMap_map]
      simp only [Segment.code_between]
    have hplain : [Segment.plain q.ahead].flatMap (Segment.code c.registry) = q.ahead :=
      List.flatMap_singleton ..
    rw [List.flatMap_append, List.flatMap_append, hfront, hcode, hplain, List.append_assoc]
  · have hle := Compiler.line_le_of_tag hsecond hmem
    have hx : Text.newlines ('x' :: Source.normalize b) = (Source.normalize b).newlines :=
      List.count_cons_of_ne (by decide)
    rw [hnormal', Text.newlines_append, hx] at hlines
    omega

/-- A comment and a tag inside an HTML comment, a wall, and a block over two lines. -/
theorem compile_append_wall_block :
    ∃ out segments,
      (Compiler.mk .standard false).compile ("[* c *]\n<!--[= 1 ]-->" ++ "x") = .ok out ∧
      (Compiler.mk .standard false).segments "[? 2 ]\n[/]" = .ok segments ∧
      (Compiler.mk .standard false).compile ("[* c *]\n<!--[= 1 ]-->" ++ "x" ++ "[? 2 ]\n[/]") =
        .ok (out ++ (segments.map (Segment.later 1)).flatMap (Segment.code .standard)) := by
  let one : Expr := .plain (.one none (.number ['1']))
  let two : Expr := .plain (.one none (.number ['2']))
  have hfirst : (Compiler.mk .standard false).segments ("[* c *]\n<!--[= 1 ]-->" ++ "x") =
      .ok [.plain [], .comment "[* c *]", .plain "\n", .tag "<!--[= 1 ]-->" 2 (.echo one),
        .plain "x"] := by
    with_unfolding_all rfl
  have hsecond : (Compiler.mk .standard false).segments "[? 2 ]\n[/]" =
      .ok [.plain [], .tag "[? 2 ]" 1 (.branch two), .plain "\n", .tag "[/]" 2 .endBranch,
        .plain []] := by
    with_unfolding_all rfl
  have hlines : (Source.normalize "[* c *]\n<!--[= 1 ]-->").newlines = 1 := by decide
  have hclosed : ∀ segments,
      (Compiler.mk .standard false).segments ("[* c *]\n<!--[= 1 ]-->" ++ "x") = .ok segments →
        ∀ segment ∈ segments, segment.IsClosed := by
    intro segments hsegments segment hmem
    obtain rfl := Except.ok.inj (hfirst.symm.trans hsegments)
    simp only [List.mem_cons, List.not_mem_nil, or_false] at hmem
    rcases hmem with rfl | rfl | rfl | rfl | rfl
    · trivial
    · exact ⟨[], " c *]", rfl, .inl rfl, by decide⟩
    · trivial
    · trivial
    · trivial
  have hout := Compiler.compile_eq_ok_iff.2 ⟨_, hfirst, rfl⟩
  have hout' := Compiler.compile_eq_ok_iff.2 ⟨_, hsecond, rfl⟩
  obtain ⟨segments, hsegments, -, hwhole, -⟩ := compile_append_wall _ _ _ _ _ hout hout' hclosed
  rw [hlines] at hwhole
  exact ⟨_, segments, hout, hsegments, hwhole⟩

end Stencil
